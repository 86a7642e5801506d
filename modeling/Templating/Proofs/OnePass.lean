import Mathlib.Tactic.SplitIfs
import Templating.Proofs.OpenTags
import Templating.Template

/-!
# The parser and the pass agree

The parser of bodies calls itself through the tags it has met; the pass keeps
the open tags on a stack.  This module shows that both give the same nodes or the
same error, and leave the same tokens.

**Invariant.**  A body is parsed where the pass stands at `s`.  When the body has
been parsed to `nodes`, the pass has come to `s.add nodes` with the same tokens
ahead, and these are empty or start with a directive that ends the body
(`Follows`, `EndsAt`).  So the calls that have not returned are, from the
innermost to the outermost, the tags that are open in the pass.

Main statements: `Parser.parseUntil_follows`, for every body at every depth, and
`parseQueue_eq_run`.
-/

namespace Templating

section Follows

/-- The tokens are used up, or a directive of one of the names is next. -/
def EndsAt (names : List String) : List Token → Prop
  | [] => True
  | token :: _ => ∃ name, token.tagName? = some name ∧ name ∈ names

/-- A parse ends where a pass comes that would end as `target`: with an error in
this same error, and with a value in front of tokens from which the pass goes on
at `after` that value. -/
inductive Follows {α : Type}
    (strict : Bool)
    (target : Except ParseError (List Node) × List Token)
    (after : α → Pass)
    (ends : List Token → Prop) : Parsed α → Prop
  | ok {value : α} {rest : List Token}
      (hrun : target = (after value).run strict rest)
      (hends : ends rest) :
      Follows strict target after ends (.ok value, .ofTokens strict rest)
  | error {e : ParseError} {rest : List Token}
      (hrun : target = (.error e, rest)) :
      Follows strict target after ends (.error e, .ofTokens strict rest)

/-- The parse of a body follows the pass. -/
abbrev FollowsBody
    (strict : Bool) (s : Pass) (length : Nat)
    (target : Except ParseError (List Node) × List Token) :
    Parsed (List Node) → Prop :=
  Follows strict target s.add
    fun rest => EndsAt s.stops rest ∧ rest.length ≤ length

/-- The parse of a node follows the pass. -/
abbrev FollowsNode
    (strict : Bool) (s : Pass) (length : Nat)
    (target : Except ParseError (List Node) × List Token) :
    Parsed Node → Prop :=
  Follows strict target (fun node => s.add [node])
    fun rest => rest.length ≤ length

variable {strict : Bool} {target : Except ParseError (List Node) × List Token}

theorem Follows.mono {α : Type} {after : α → Pass}
    {ends ends' : List Token → Prop} {r : Parsed α}
    (h : Follows strict target after ends r)
    (himp : ∀ rest, ends rest → ends' rest) :
    Follows strict target after ends' r := by
  cases h with
  | ok hrun hends => exact .ok hrun (himp _ hends)
  | error hrun => exact .error hrun

theorem Follows.longer {s : Pass} {m n : Nat} {r : Parsed (List Node)}
    (h : FollowsBody strict s m target r) (hmn : m ≤ n) :
    FollowsBody strict s n target r :=
  h.mono fun _ hends => ⟨hends.1, Nat.le_trans hends.2 hmn⟩

/-- A node and then the rest of its body make up the body. -/
theorem Follows.cons {s : Pass} {node : Node} {n : Nat}
    {r : Parsed (List Node)}
    (h : FollowsBody strict (s.add [node]) n target r) :
    FollowsBody strict s n target (Parsed.cons node r) := by
  cases h with
  | @ok nodes rest hrun hends =>
      refine .ok (?_ : target = (s.add (node :: nodes)).run strict rest) ?_
      · rw [hrun, Pass.add_add]
        rfl
      · rwa [Pass.stops_add] at hends
  | error hrun => exact .error hrun

end Follows

section Paired

variable {strict : Bool} {target : Except ParseError (List Node) × List Token}

/-- What a paired tag does once its arguments have been read. -/
def Paired.script (t : Paired) : Script :=
  Script.body t.stops fun first =>
    Script.alternative t.divider [t.closing] fun second =>
      Script.expectEnd t.tag t.closing (.done (t.node first second))

theorem OpenTag.closing_mem_stops (f : OpenTag) :
    f.paired.closing ∈ f.stops := by
  obtain ⟨paired, first, nodes⟩ := f
  cases first with
  | none => exact (paired.mem_stops_iff _).2 (.inl rfl)
  | some first => exact List.mem_singleton.2 rfl

/-- In front of its closing directive, or of the end of the tokens, a tag gives
its node where the pass closes it, or is found open where the pass ends. -/
theorem Script.expectEnd_follows
    (body : Stop → Parser → Parsed (List Node))
    {s : Pass} {f : OpenTag} {rest : List Token} {n : Nat}
    (hrun : target = (s.enter f).run strict rest)
    (hends : EndsAt [f.paired.closing] rest)
    (hlen : rest.length ≤ n) :
    FollowsNode strict s n target
      ((expectEnd f.paired.tag f.paired.closing (.done f.node)).run body
        (.ofTokens strict rest)) := by
  cases rest with
  | nil => exact .error hrun
  | cons token rest =>
      obtain ⟨name, hname, hmem⟩ := hends
      obtain rfl := List.mem_singleton.1 hmem
      have hstep := Pass.step_of_mem_stops strict (s := s.enter f) hname
        f.closing_mem_stops
      rw [Pass.run_cons hstep, Pass.stop_enter, if_pos rfl] at hrun
      have hfront : (Parser.ofTokens strict (token :: rest)).queue.head?.bind
          Token.tagName? = some f.paired.closing := hname
      rw [run_expectEnd_of_front hfront]
      exact .ok hrun (Nat.le_of_succ_le hlen)

variable {fuel : Nat}
  (hbody : ∀ (s : Pass) (queue : List Token), queue.length < fuel →
    FollowsBody strict s queue.length (s.run strict queue)
      (Parser.parseUntil fuel (.named s.stops) (.ofTokens strict queue)))
include hbody

/-- A body and what is done with it. -/
theorem Script.body_follows
    {s t : Pass} {queue : List Token} {n : Nat} {cont : List Node → Script}
    (hrun : target = s.run strict queue)
    (hlen : queue.length < fuel)
    (hcont : ∀ nodes rest,
      target = (s.add nodes).run strict rest → EndsAt s.stops rest →
      rest.length ≤ queue.length →
        FollowsNode strict t n target
          ((cont nodes).run (Parser.parseUntil fuel) (.ofTokens strict rest))) :
    FollowsNode strict t n target
      ((body s.stops cont).run (Parser.parseUntil fuel)
        (.ofTokens strict queue)) := by
  have h := hbody s queue hlen
  generalize hr : Parser.parseUntil fuel (.named s.stops) (.ofTokens strict queue)
    = r at h
  cases h with
  | ok hbodyRun hends =>
      rw [run_body_ok hr]
      exact hcont _ _ (hrun.trans hbodyRun) hends.1 hends.2
  | error hbodyRun =>
      rw [run_body_error hr]
      exact .error (hrun.trans hbodyRun)

/-- The part behind the divider, if there is one, and the end of the tag. -/
theorem Script.alternative_follows
    {s : Pass} {t : Paired} {first : List Node} {rest : List Token} {n : Nat}
    (hrun : target = (s.enter ⟨t, none, first⟩).run strict rest)
    (hends : EndsAt t.stops rest)
    (hlen : rest.length ≤ n)
    (hfuel : rest.length < fuel) :
    FollowsNode strict s n target
      ((alternative t.divider [t.closing] fun second =>
          expectEnd t.tag t.closing (.done (t.node first second))).run
        (Parser.parseUntil fuel) (.ofTokens strict rest)) := by
  have hclose : EndsAt [t.closing] rest →
      FollowsNode strict s n target
        ((expectEnd t.tag t.closing (.done (t.node first []))).run
          (Parser.parseUntil fuel) (.ofTokens strict rest)) :=
    fun h => expectEnd_follows _ (f := ⟨t, none, first⟩) hrun h hlen
  cases rest with
  | nil =>
      rw [run_alternative_of_not_front (by simp [Parser.ofTokens])]
      exact hclose trivial
  | cons token rest =>
      obtain ⟨name, hname, hmem⟩ := hends
      have hstep := Pass.step_of_mem_stops strict
        (s := s.enter ⟨t, none, first⟩) hname hmem
      rw [Pass.stop_enter] at hstep
      have hfront : (Parser.ofTokens strict (token :: rest)).queue.head?.bind
          Token.tagName? = some name := hname
      rcases (t.mem_stops_iff name).1 hmem with rfl | rfl
      · -- the closing directive: there is no second part
        rw [run_alternative_of_not_front fun h =>
          t.divider_ne_closing (Option.some.inj (h.symm.trans hfront))]
        exact hclose ⟨_, hname, List.mem_singleton.2 rfl⟩
      · rw [if_neg t.divider_ne_closing] at hstep
        rw [Pass.run_cons hstep] at hrun
        rw [run_alternative_of_front hfront]
        simp only [List.length_cons] at hlen hfuel
        refine body_follows hbody hrun (by omega) ?_
        intro second rest' hrun' hends' hlen'
        exact expectEnd_follows _ (f := ⟨t, some first, second⟩) hrun' hends'
          (by omega)

/-- A paired tag from its opening directive to its closing one. -/
theorem Paired.script_follows
    {s : Pass} {t : Paired} {queue : List Token}
    (hrun : target = (s.enter (.opened t)).run strict queue)
    (hfuel : queue.length < fuel) :
    FollowsNode strict s queue.length target
      (t.script.run (Parser.parseUntil fuel) (.ofTokens strict queue)) := by
  refine Script.body_follows hbody (s := s.enter (.opened t)) hrun hfuel ?_
  intro first rest hrun' hends hlen
  exact Script.alternative_follows hbody hrun' hends hlen (by omega)

end Paired

section Builtin

namespace Directive

/-- The script of a directive whose arguments have been checked. -/
def script : Except ParseError Directive → Script
  | .ok (.leaf node) => .done node
  | .ok (.opens t) => t.script
  | .error e => .fail e

theorem loop_script (token : Token) :
    Tag.loop token = script (loop token) := by
  rcases h : token.arguments with _ | ⟨item, _ | ⟨word, _ | ⟨source, _ | ⟨more, rest⟩⟩⟩⟩
  · simp [Tag.loop, loop, arguments, h, Script.wrongCount, script]
  · simp [Tag.loop, loop, arguments, h, Script.wrongCount, script]
  · simp [Tag.loop, loop, arguments, h, Script.wrongCount, script]
  · by_cases hin : word = "in"
    · simp [Tag.loop, loop, arguments, h, hin, script, Paired.script,
        Paired.stops, Paired.divider, Paired.closing, Paired.tag, Paired.node]
    · simp [Tag.loop, loop, arguments, h, hin, script]
  · simp [Tag.loop, loop, arguments, h, Script.wrongCount, script]

theorem branch_script (negated : Bool) (token : Token) :
    (if negated then Tag.whenNot token else Tag.when token) =
      script (branch negated token) := by
  rcases h : token.arguments with _ | ⟨condition, _ | ⟨more, rest⟩⟩
  · cases negated <;>
      simp [Tag.whenNot, Tag.when, Tag.branch, branch, arguments, h,
        Script.wrongCount, script, Except.map]
  · cases negated <;>
      simp [Tag.whenNot, Tag.when, Tag.branch, branch, arguments, h, script,
        Except.map, Paired.script, Paired.stops, Paired.divider,
        Paired.closing, Paired.tag, Paired.node]
  · cases negated <;>
      simp [Tag.whenNot, Tag.when, Tag.branch, branch, arguments, h,
        Script.wrongCount, script, Except.map]

theorem inclusion_script (token : Token) :
    Tag.inclusion token = script (inclusion token) := by
  rcases h : token.arguments with _ | ⟨name, _ | ⟨more, rest⟩⟩
  · simp [Tag.inclusion, inclusion, arguments, h, Script.wrongCount, script,
      Except.map]
  · simp [Tag.inclusion, inclusion, arguments, h, script, Except.map]
  · simp [Tag.inclusion, inclusion, arguments, h, Script.wrongCount, script,
      Except.map]

theorem now_script {token : Token} {name : String}
    (hname : token.tagName? = some name) :
    Tag.now token = script (now token) := by
  have hhead : token.components.head? = some name := by
    rw [Token.tagName?, if_pos (Token.kind_of_tagName? hname)] at hname
    exact hname
  rcases h : token.components with _ | ⟨first, _ | ⟨format, _ | ⟨more, rest⟩⟩⟩
  · rw [h] at hhead
    simp at hhead
  · simp [Tag.now, now, Token.arguments, h, script]
  · simp [Tag.now, now, Token.arguments, h, script]
  · simp [Tag.now, now, Token.arguments, h, script]

/-- The table of tags and the directives of the pass agree. -/
theorem find?_builtin {token : Token} {name : String}
    (hname : token.tagName? = some name) :
    (Keyed.find? name Tag.builtin).map (fun tag => tag token) =
      (builtin? name token).map script := by
  have hif := branch_script false token
  have hifnot := branch_script true token
  simp only [Bool.false_eq_true, if_false, if_true] at hif hifnot
  simp only [Tag.builtin, Keyed.find?, builtin?, eq_comm (b := name)]
  split_ifs
  · exact congrArg some (loop_script token)
  · exact congrArg some hif
  · exact congrArg some hifnot
  · exact congrArg some (inclusion_script token)
  · exact congrArg some (now_script hname)
  · rfl

end Directive

end Builtin

section Body

theorem Stop.named_eq_true_iff (names : List String) (view : View)
    (token : Token) :
    named names view token = true ↔
      ∃ name, token.tagName? = some name ∧ name ∈ names := by
  unfold named
  cases token.tagName? with
  | none => simp
  | some name => simp

theorem Stop.named_nil : named [] = never := by
  funext view token
  unfold named never
  cases token.tagName? with
  | none => rfl
  | some name => rfl

variable {strict : Bool} {fuel : Nat}
  (hbody : ∀ (s : Pass) (queue : List Token), queue.length < fuel →
    FollowsBody strict s queue.length (s.run strict queue)
      (Parser.parseUntil fuel (.named s.stops) (.ofTokens strict queue)))
  {s : Pass} {token : Token} {rest : List Token}
include hbody

/-- A token that leaves the pass where it is. -/
theorem Parser.skip_follows (hstep : s.step strict token = .ok s)
    (hrest : rest.length < fuel) :
    FollowsBody strict s (token :: rest).length (s.run strict (token :: rest))
      (parseUntil fuel (.named s.stops) (.ofTokens strict rest)) := by
  rw [Pass.run_cons hstep]
  exact (hbody s rest hrest).longer (Nat.le_succ _)

theorem Parser.leaf_follows {node : Node}
    (hstep : s.step strict token = .ok (s.add [node]))
    (hrest : rest.length < fuel) :
    FollowsBody strict s (token :: rest).length (s.run strict (token :: rest))
      (Parsed.cons node
        (parseUntil fuel (.named s.stops) (.ofTokens strict rest))) := by
  rw [Pass.run_cons hstep]
  have hnext := hbody (s.add [node]) rest hrest
  rw [Pass.stops_add] at hnext
  exact (hnext.longer (Nat.le_succ _)).cons

/-- A directive that the pass follows, and the script of its tag. -/
theorem Directive.script_follows {directive : Except ParseError Directive}
    (hstep : s.step strict token = directive.map s.follow)
    (hrest : rest.length < fuel) :
    FollowsNode strict s rest.length (s.run strict (token :: rest))
      ((script directive).run (Parser.parseUntil fuel)
        (.ofTokens strict rest)) := by
  cases directive with
  | error e => exact .error (Pass.run_cons_error hstep rest)
  | ok directive =>
      have hrun := Pass.run_cons hstep rest
      cases directive with
      | leaf node => exact .ok hrun (Nat.le_refl _)
      | opens t => exact Paired.script_follows hbody hrun hrest

/-- The same for the directive and what follows it in its body. -/
theorem Parser.tag_follows {script : Script}
    {directive : Except ParseError Directive}
    (hscript : Directive.script directive = script)
    (hstep : s.step strict token = directive.map s.follow)
    (hrest : rest.length < fuel) :
    FollowsBody strict s (token :: rest).length (s.run strict (token :: rest))
      (match script.run (parseUntil fuel) (.ofTokens strict rest) with
      | (.ok node, q) => Parsed.cons node (parseUntil fuel (.named s.stops) q)
      | (.error e, q) => (.error e, q)
      | (.exhausted, q) => (.exhausted, q)) := by
  have hnode := Directive.script_follows hbody hstep hrest
  rw [hscript] at hnode
  generalize script.run (parseUntil fuel) (.ofTokens strict rest) = r at hnode ⊢
  cases hnode with
  | error hrun => exact .error hrun
  | @ok node rest' hrun hle =>
      have hnext := hbody (s.add [node]) rest' (Nat.lt_of_le_of_lt hle hrest)
      rw [Pass.stops_add, ← hrun] at hnext
      exact (hnext.longer (Nat.le_succ_of_le hle)).cons

end Body

section Agreement

variable (strict : Bool)

/-- **Every body is parsed as the pass goes.** The induction is on the bound; it
covers the bodies inside a tag and what follows the tag. -/
theorem Parser.parseUntil_follows (fuel : Nat) :
    ∀ (s : Pass) (queue : List Token), queue.length < fuel →
      FollowsBody strict s queue.length (s.run strict queue)
        (parseUntil fuel (.named s.stops) (.ofTokens strict queue)) := by
  induction fuel with
  | zero =>
      intro s queue h
      exact absurd h (Nat.not_lt_zero _)
  | succ fuel ih =>
      intro s queue hlen
      have hhere (h : EndsAt s.stops queue) :
          FollowsBody strict s queue.length (s.run strict queue)
            (.ok [], .ofTokens strict queue) := by
        refine .ok ?_ ⟨h, Nat.le_refl _⟩
        rw [Pass.add_nil]
      unfold parseUntil
      cases queue with
      | nil => exact hhere trivial
      | cons token rest =>
          have hrest : rest.length < fuel := Nat.lt_of_succ_lt_succ hlen
          simp only [ofTokens]
          cases hkind : token.kind with
          | text =>
              exact leaf_follows ih (by simp only [Pass.step, hkind]) hrest
          | placeholder =>
              exact leaf_follows ih (by simp only [Pass.step, hkind]) hrest
          | comment =>
              exact skip_follows ih (by simp only [Pass.step, hkind]) hrest
          | block =>
              have hblock : s.step strict token = s.block strict token := by
                simp only [Pass.step, hkind]
              simp only [Stop.named_eq_true_iff]
              split
              · next hstop => exact hhere hstop
              · next hstop =>
                  cases hname : token.tagName? with
                  | none =>
                      rw [Pass.block, hname] at hblock
                      exact skip_follows ih hblock hrest
                  | some name =>
                      have hmem : name ∉ s.stops :=
                        fun h => hstop ⟨name, hname, h⟩
                      rw [Pass.block, hname] at hblock
                      simp only [if_neg hmem] at hblock
                      have htags := Directive.find?_builtin hname
                      cases hfind : Keyed.find? name Tag.builtin with
                      | none =>
                          rw [hfind] at htags
                          rw [Option.map_eq_none_iff.1 htags.symm] at hblock
                          simp only [hfind]
                          cases strict with
                          | true => exact .error (Pass.run_cons_error hblock rest)
                          | false => exact skip_follows ih hblock hrest
                      | some tag =>
                          rw [hfind] at htags
                          obtain ⟨directive, hsome, hscript⟩ :=
                            Option.map_eq_some_iff.1 htags.symm
                          rw [hsome] at hblock
                          simp only [hfind]
                          exact tag_follows ih hscript hblock hrest

/-- With a bound above the number of tokens, the parser ends where the pass
does. -/
theorem Parser.parse_ofTokens {tokens : List Token} {fuel : Nat}
    (h : tokens.length < fuel) :
    parse fuel (.ofTokens strict tokens) =
      (.ofExcept (Pass.start.run strict tokens).1,
        .ofTokens strict (Pass.start.run strict tokens).2) := by
  have hfollows := parseUntil_follows strict fuel .start tokens h
  rw [Pass.stops_start, Stop.named_nil] at hfollows
  unfold parse
  generalize parseUntil fuel .never (.ofTokens strict tokens) = r at hfollows ⊢
  cases hfollows with
  | error hrun => rw [hrun]; rfl
  | @ok nodes rest hrun hends =>
      cases rest with
      | nil =>
          rw [Pass.run_nil, Pass.finish_start_add] at hrun
          rw [hrun]
          rfl
      | cons token rest =>
          obtain ⟨name, -, hmem⟩ := hends.1
          simp at hmem

theorem parseTokens_eq_run (tokens : List Token) :
    parseTokens strict tokens = (Pass.start.run strict tokens).1 :=
  Outcome.toExcept_eq_of_eq_ofExcept
    (congrArg Prod.fst (Parser.parse_ofTokens strict (Nat.lt_succ_self _))) _

/-- The parser leaves over the tokens that the pass leaves over. -/
theorem leftover_eq_run (tokens : List Token) :
    (parseQueue strict tokens).2 = (Pass.start.run strict tokens).2 := by
  have h := Parser.parse_ofTokens strict (Nat.lt_succ_self tokens.length)
  exact congrArg (fun r => r.2.queue) h

/-- **The parser and the pass agree**, on the nodes or the error and on the
tokens that are left over. -/
theorem parseQueue_eq_run (tokens : List Token) :
    parseQueue strict tokens = Pass.start.run strict tokens :=
  Prod.ext (parseTokens_eq_run strict tokens) (leftover_eq_run strict tokens)

end Agreement

end Templating
