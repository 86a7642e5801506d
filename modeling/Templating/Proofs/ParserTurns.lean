import Mathlib
import Templating.Proofs.OnePass

/-!
# The turns of a parse

Tags do what they like with the parser: they take tokens, put tokens back, parse bodies
and register other tags.  This module says what holds of a parse whatever its tags do.

**Turns.**  A parse goes through its queue in turns.  One turn takes the token at the
front and puts it in place, passes over it, rejects it, or hands it to a tag, which
leaves some other parser (`Parser.turn?`).  A parse is its turns one after another, up to
the first error or to where there is no turn (`Parser.parseUntil_succ`).

**End.**  There is no turn where the queue is empty or starts with a directive that ends
the body.  So this is where a parse stops that gives nodes.

**Errors.**  Bodies are parsed inside the turn of the tag that asks for them.  The
built-in tags end with the error of a body at once, and so does the parse that they have
been called from (`Call.result_of_leads`).

Main definitions: `Turn`, `Parser.turn?`, `Parser.turns`, `Call` and `Call.Leads`.  Main
statements: `Parser.parseUntil_mono`, and `Parser.parse_whatever_tags_do`.
-/

namespace Templating

section Turns

/-- What a parse does with the token at the front of the queue. -/
inductive Turn where
  /-- A text or a placeholder becomes a node. -/
  | place (node : Node)
  /-- A comment is passed over, and so is a directive that means nothing. -/
  | skip
  /-- A strict parse ends at a directive without a tag. -/
  | reject (name : String)
  /-- A directive is handed to its tag, and this is what the tag gives. -/
  | dispatch (token : Token) (outcome : Outcome ParseError Node)

namespace Turn

/-- What the turn adds to the nodes, or how it ends the parse. -/
def outcome : Turn → Outcome ParseError (List Node)
  | .place node => .ok [node]
  | .skip => .ok []
  | .reject name => .error (.unknownTag name)
  | .dispatch _ o => o.map fun node => [node]

/-- The nodes that the turn adds. -/
def nodes (turn : Turn) : List Node :=
  match turn.outcome with
  | .ok nodes => nodes
  | .error _ => []
  | .exhausted => []

/-- The turn and what follows it, in the parser that it leaves. -/
def followedBy (turn : Turn) (next : Parser → Parsed (List Node)) (p : Parser) :
    Parsed (List Node) :=
  match turn.outcome with
  | .ok nodes => ((next p).1.map (nodes ++ ·), (next p).2)
  | .error e => (.error e, p)
  | .exhausted => (.exhausted, p)

end Turn

namespace Parser

/-- The next turn, and the parser that it leaves; nothing where the body ends. -/
def turn? (fuel : Nat) (stop : Stop) (p : Parser) : Option (Turn × Parser) :=
  match p.queue with
  | [] => none
  | token :: rest =>
      let p' : Parser := { p with queue := rest }
      match token.kind with
      | .text => some (.place (.text token.payload), p')
      | .placeholder => some (.place (.placeholder (.ofSource token.payload)), p')
      | .comment => some (.skip, p')
      | .block =>
          if stop p'.view token then
            none
          else
            match token.tagName? with
            | none => some (.skip, p')
            | some name =>
                match Keyed.find? name p'.tags with
                | some tag =>
                    let r := (tag token).run (parseUntil fuel) p'
                    some (.dispatch token r.1, r.2)
                | none => if p'.strict then some (.reject name, p') else some (.skip, p')

/-- The token at the front of the queue is a directive that does not end the body, and is
handed to the tag of its name. -/
structure Hands (p : Parser) (stop : Stop) (name : String) (token : Token) (tag : Tag) :
    Prop where
  front : p.next.1 = some token
  goesOn : stop p.next.2.view token = false
  named : token.tagName? = some name
  registered : Keyed.find? name p.tags = some tag

/-- All turns of a parse, in order. -/
def turns : Nat → Stop → Parser → List Turn
  | 0, _, _ => []
  | fuel + 1, stop, p =>
      match p.turn? fuel stop with
      | none => []
      | some (turn, q) =>
          match turn.outcome with
          | .ok _ => turn :: turns fuel stop q
          | .error _ => [turn]
          | .exhausted => [turn]

/-- **A parse is its turns one after another.** -/
theorem parseUntil_succ (fuel : Nat) (stop : Stop) (p : Parser) :
    parseUntil (fuel + 1) stop p =
      match p.turn? fuel stop with
      | none => (.ok [], p)
      | some (turn, q) => turn.followedBy (parseUntil fuel stop) q := by
  have hskip (r : Parsed (List Node)) : r = (r.1.map ([] ++ ·), r.2) :=
    Prod.ext (Outcome.map_id r.1).symm rfl
  unfold parseUntil turn?
  cases p.queue with
  | nil => rfl
  | cons token rest =>
      simp only
      cases token.kind with
      | text => rfl
      | placeholder => rfl
      | comment => exact hskip _
      | block =>
          simp only
          split
          · rfl
          · cases token.tagName? with
            | none => exact hskip _
            | some name =>
                simp only
                cases Keyed.find? name p.tags with
                | none =>
                    simp only
                    split
                    · rfl
                    · exact hskip _
                | some tag =>
                    simp only
                    generalize (tag token).run (parseUntil fuel) { p with queue := rest } = r
                    obtain ⟨outcome, q⟩ := r
                    cases outcome <;> rfl

end Parser

end Turns

section Bound

/-- The second way to parse bodies gives what the first one gives wherever that has not
come to its bound. -/
def Extends (body body' : Stop → Parser → Parsed (List Node)) : Prop :=
  ∀ stop p, (body stop p).1 ≠ .exhausted → body' stop p = body stop p

variable {body body' : Stop → Parser → Parsed (List Node)}

theorem Script.run_of_extends (hbody : Extends body body') (script : Script) (p : Parser)
    (h : (script.run body p).1 ≠ .exhausted) : script.run body' p = script.run body p := by
  induction script generalizing p with
  | done node => rfl
  | fail error => rfl
  | next cont ih => exact ih _ _ h
  | prepend token cont ih => exact ih _ h
  | inspect cont ih => exact ih _ _ h
  | register name tag cont _ ih => exact ih _ h
  | parse stop cont ih =>
      have hsame := hbody stop p
      rcases hr : body stop p with ⟨nodes | e | _, q⟩
      · rw [hr] at hsame
        simp only [run, hr] at h
        simp only [run, hr, hsame (by simp)]
        exact ih _ _ h
      · rw [hr] at hsame
        simp only [run, hr] at h
        simp only [run, hr, hsame (by simp)]
        exact ih _ _ h
      · simp [run, hr] at h

namespace Parser

variable {fuel bound : Nat}

/-- With a larger bound the next turn is the same, unless it has come to the bound. -/
theorem turn?_of_extends (hbody : Extends (parseUntil fuel) (parseUntil bound))
    (stop : Stop) (p : Parser)
    (h : ∀ turn q, p.turn? fuel stop = some (turn, q) → turn.outcome ≠ .exhausted) :
    p.turn? bound stop = p.turn? fuel stop := by
  unfold turn? at h ⊢
  cases hqueue : p.queue with
  | nil => rfl
  | cons token rest =>
      simp only [hqueue] at h ⊢
      cases hkind : token.kind with
      | text => rfl
      | placeholder => rfl
      | comment => rfl
      | block =>
          simp only [hkind] at h ⊢
          split
          · rfl
          · next hstop =>
              simp only [if_neg hstop] at h
              cases hname : token.tagName? with
              | none => rfl
              | some name =>
                  simp only [hname] at h ⊢
                  cases hfind : Keyed.find? name p.tags with
                  | none => rfl
                  | some tag =>
                      simp only [hfind] at h ⊢
                      have hne := h _ _ rfl
                      rw [Turn.outcome, ne_eq, Outcome.map_eq_exhausted_iff] at hne
                      rw [Script.run_of_extends hbody (tag token) _ hne]

/-- **A larger bound changes nothing**, once the bound has not been reached. -/
theorem parseUntil_mono (hle : fuel ≤ bound) :
    Extends (parseUntil fuel) (parseUntil bound) := by
  induction fuel generalizing bound with
  | zero =>
      intro stop p h
      exact absurd rfl h
  | succ fuel ih =>
      intro stop p h
      obtain ⟨bound, rfl⟩ : ∃ n, bound = n + 1 := ⟨bound - 1, by omega⟩
      have hbody := ih (Nat.le_of_succ_le_succ hle)
      have hturn := turn?_of_extends hbody stop p ?_
      · rw [parseUntil_succ] at h
        rw [parseUntil_succ, parseUntil_succ, hturn]
        cases hnext : p.turn? fuel stop with
        | none => rfl
        | some next =>
            obtain ⟨turn, q⟩ := next
            simp only [hnext, Turn.followedBy] at h ⊢
            cases houtcome : turn.outcome with
            | ok nodes =>
                simp only [houtcome] at h ⊢
                rw [hbody stop q fun he => h ((Outcome.map_eq_exhausted_iff _ _).2 he)]
            | error e => rfl
            | exhausted => rfl
      · intro turn q hnext hexhausted
        rw [parseUntil_succ, hnext] at h
        simp [Turn.followedBy, hexhausted] at h

end Parser

end Bound

section End

namespace Parser

variable {fuel : Nat} {stop : Stop} {p q : Parser} {nodes : List Node}

/-- A parse that gives nodes has come to where there is no turn, and the nodes are those of
its turns. -/
theorem parseUntil_eq_ok (h : parseUntil fuel stop p = (.ok nodes, q)) :
    (∃ depth, q.turn? depth stop = none) ∧
      nodes = (turns fuel stop p).flatMap Turn.nodes := by
  induction fuel generalizing p nodes with
  | zero => cases h
  | succ fuel ih =>
      rw [parseUntil_succ] at h
      cases hnext : p.turn? fuel stop with
      | none =>
          simp only [hnext] at h
          cases h
          exact ⟨⟨fuel, hnext⟩, by simp [turns, hnext]⟩
      | some next =>
          obtain ⟨turn, p'⟩ := next
          simp only [hnext, Turn.followedBy] at h
          cases houtcome : turn.outcome with
          | ok front =>
              simp only [houtcome] at h
              rcases hrest : parseUntil fuel stop p' with ⟨back | e | _, q'⟩
              · simp only [hrest, Outcome.map] at h
                cases h
                obtain ⟨hend, hback⟩ := ih hrest
                refine ⟨hend, ?_⟩
                simp only [turns, hnext, houtcome, List.flatMap_cons, ← hback]
                simp only [Turn.nodes, houtcome]
              · simp [hrest, Outcome.map] at h
              · simp [hrest, Outcome.map] at h
          | error e => simp [houtcome] at h
          | exhausted => simp [houtcome] at h

/-- Bodies that end at directives of some names end at these, or with the queue. -/
theorem turn?_named_eq_none {names : List String}
    (h : p.turn? fuel (.named names) = none) : EndsAt names p.queue := by
  unfold turn? at h
  cases hqueue : p.queue with
  | nil => trivial
  | cons token rest =>
      simp only [hqueue] at h
      split at h
      · cases h
      · cases h
      · cases h
      · split at h
        · next hstop => exact (Stop.named_eq_true_iff _ _ _).1 hstop
        · split at h
          · cases h
          · split at h
            · cases h
            · split at h <;> cases h

/-- **A directive is dispatched just when it is handed to its tag**, with what the tag then
gives and leaves. -/
theorem turn?_eq_dispatch_iff {token : Token} {outcome : Outcome ParseError Node} :
    p.turn? fuel stop = some (.dispatch token outcome, q) ↔
      ∃ name tag, p.Hands stop name token tag ∧
        (tag token).run (parseUntil fuel) p.next.2 = (outcome, q) := by
  constructor
  · intro h
    unfold turn? at h
    cases hqueue : p.queue with
    | nil => simp [hqueue] at h
    | cons front rest =>
        simp only [hqueue] at h
        have hnext : p.next = (some front, { p with queue := rest }) := by
          simp only [next, hqueue]
        split at h
        · cases h
        · cases h
        · cases h
        · split at h
          · cases h
          · next hstop =>
              cases hname : front.tagName? with
              | none => simp [hname] at h
              | some name =>
                  simp only [hname] at h
                  split at h
                  · next tag hfind =>
                      cases h
                      refine ⟨name, tag, ⟨?_, ?_, hname, hfind⟩, ?_⟩
                      · rw [hnext]
                      · rw [hnext]
                        exact Bool.eq_false_iff.2 hstop
                      · rw [hnext]
                  · split at h <;> cases h
  · rintro ⟨name, tag, ⟨hfront, hgoesOn, hname, hfind⟩, hrun⟩
    unfold next at hfront hgoesOn hrun
    unfold turn?
    cases hqueue : p.queue with
    | nil =>
        simp only [hqueue] at hfront
        cases hfront
    | cons front rest =>
        simp only [hqueue] at hfront hgoesOn hrun ⊢
        cases hfront
        simp [Token.kind_of_tagName? hname, hgoesOn, hname, hfind, hrun]

/-- Each directive that a parse dispatches, it has handed to a tag. -/
theorem exists_hands_of_mem_turns {token : Token} {outcome : Outcome ParseError Node}
    (h : .dispatch token outcome ∈ turns fuel stop p) :
    ∃ (p' : Parser) (name : String) (tag : Tag), p'.Hands stop name token tag := by
  have hhere {depth : Nat} {p q : Parser}
      (hturn : p.turn? depth stop = some (.dispatch token outcome, q)) :
      ∃ (p' : Parser) (name : String) (tag : Tag), p'.Hands stop name token tag := by
    obtain ⟨name, tag, hhands, -⟩ := turn?_eq_dispatch_iff.1 hturn
    exact ⟨p, name, tag, hhands⟩
  induction fuel generalizing p with
  | zero => cases h
  | succ fuel ih =>
      rw [turns] at h
      split at h
      · cases h
      · next turn q hnext =>
          split at h
          · rcases List.mem_cons.1 h with rfl | hrest
            · exact hhere hnext
            · exact ih hrest
          · obtain rfl := List.mem_singleton.1 h
            exact hhere hnext
          · obtain rfl := List.mem_singleton.1 h
            exact hhere hnext

/-- **No directive at which the body ends is handed to a tag.** -/
theorem tagName?_ne_of_mem_turns {names : List String} {token : Token}
    {outcome : Outcome ParseError Node}
    (h : .dispatch token outcome ∈ turns fuel (.named names) p) :
    ∀ name ∈ names, token.tagName? ≠ some name := by
  intro name hname htoken
  obtain ⟨p', other, tag, hhands⟩ := exists_hands_of_mem_turns h
  have hstop := (Stop.named_eq_true_iff names p'.next.2.view token).2 ⟨name, htoken, hname⟩
  rw [hhands.goesOn] at hstop
  cases hstop

end Parser

end End

section Calls

/-- A parse on its way: its bound, what ends it, and the parser that it has come to. -/
structure Call where
  fuel : Nat
  stop : Stop
  parser : Parser

/-- What the rest of the parse gives. -/
def Call.result (call : Call) : Parsed (List Node) :=
  Parser.parseUntil call.fuel call.stop call.parser

/-- From a parse to a parse that is on its way at the same time or later: the same one
after its next turn, or that of a part of a built-in tag which the next turn opens. -/
inductive Call.Leads : Call → Call → Prop
  | turn {fuel : Nat} {stop : Stop} {p q : Parser} {turn : Turn} {nodes : List Node}
      (hturn : p.turn? fuel stop = some (turn, q)) (hok : turn.outcome = .ok nodes) :
      Leads ⟨fuel + 1, stop, p⟩ ⟨fuel, stop, q⟩
  | first {fuel : Nat} {stop : Stop} {p : Parser} {name : String} {token : Token}
      {tag : Tag} {t : Paired} (hhands : p.Hands stop name token tag)
      (hbuiltin : Keyed.find? name Tag.builtin = some tag)
      (hopens : Directive.builtin? name token = some (.ok (.opens t))) :
      Leads ⟨fuel + 1, stop, p⟩ ⟨fuel, .named t.stops, p.next.2⟩
  | second {fuel : Nat} {stop : Stop} {p q : Parser} {name : String} {token : Token}
      {tag : Tag} {t : Paired} {nodes : List Node} (hhands : p.Hands stop name token tag)
      (hbuiltin : Keyed.find? name Tag.builtin = some tag)
      (hopens : Directive.builtin? name token = some (.ok (.opens t)))
      (hfirst : Parser.parseUntil fuel (.named t.stops) p.next.2 = (.ok nodes, q))
      (hdivider : q.queue.head?.bind Token.tagName? = some t.divider) :
      Leads ⟨fuel + 1, stop, p⟩ ⟨fuel, .named [t.closing], q.next.2⟩

variable {fuel : Nat} {stop : Stop} {p q : Parser} {name : String} {token : Token}
  {tag : Tag} {e : ParseError}

/-- The error of a tag is the error of the parse, in the parser that the tag has left. -/
theorem Parser.Hands.result_eq (h : p.Hands stop name token tag)
    (hrun : (tag token).run (parseUntil fuel) p.next.2 = (.error e, q)) :
    Call.result ⟨fuel + 1, stop, p⟩ = (.error e, q) := by
  rw [Call.result, parseUntil_succ, turn?_eq_dispatch_iff.2 ⟨name, tag, h, hrun⟩]
  rfl

theorem Parser.Hands.script_eq {t : Paired} (h : p.Hands stop name token tag)
    (hbuiltin : Keyed.find? name Tag.builtin = some tag)
    (hopens : Directive.builtin? name token = some (.ok (.opens t))) :
    tag token = t.script := by
  have htable := Directive.find?_builtin h.named
  rw [hbuiltin, hopens] at htable
  exact Option.some.inj htable

/-- **An error goes outwards**: a parse ends with the error of each parse that it leads
to, and leaves what that one has left. -/
theorem Call.result_of_leads {call inner : Call} (h : call.Leads inner)
    (hresult : inner.result = (.error e, q)) : call.result = (.error e, q) := by
  cases h with
  | turn hturn hok =>
      unfold result at hresult ⊢
      simp only at hresult ⊢
      rw [Parser.parseUntil_succ, hturn]
      simp only [Turn.followedBy, hok, hresult]
      rfl
  | first hhands hbuiltin hopens =>
      refine hhands.result_eq ?_
      rw [hhands.script_eq hbuiltin hopens]
      exact Script.run_body_error hresult
  | second hhands hbuiltin hopens hfirst hdivider =>
      refine hhands.result_eq ?_
      rw [hhands.script_eq hbuiltin hopens, Paired.script, Script.run_body_ok hfirst]
      rw [Script.run_alternative_of_front hdivider]
      exact Script.run_body_error hresult

theorem Call.result_of_leads_many {call inner : Call}
    (h : Relation.ReflTransGen Leads call inner)
    (hresult : inner.result = (.error e, q)) : call.result = (.error e, q) := by
  induction h using Relation.ReflTransGen.head_induction_on with
  | refl => exact hresult
  | head hstep _ ih => exact result_of_leads hstep ih

end Calls

section Tags

namespace Parser

/-- **Whatever the tags of a parser do**, a parse that gives nodes ends in front of a
directive at which its body ends, or with the queue, has its nodes from its turns, and hands
no such directive to a tag; a parse of everything ends with the queue.  The error of a tag,
at any depth of built-in tags, is the result of the outermost parse, which leaves the
parser as the tag has left it; no larger bound changes that. -/
theorem parse_whatever_tags_do (fuel : Nat) (p : Parser) :
    (∀ names nodes q, parseUntil fuel (.named names) p = (.ok nodes, q) →
      EndsAt names q.queue ∧
        nodes = (turns fuel (.named names) p).flatMap Turn.nodes) ∧
    (∀ names token outcome, .dispatch token outcome ∈ turns fuel (.named names) p →
      ∀ name ∈ names, token.tagName? ≠ some name) ∧
    (∀ nodes q, parse fuel p = (.ok nodes, q) → q.queue = []) ∧
    ∀ depth stop p' name token tag e q,
      Relation.ReflTransGen Call.Leads ⟨fuel, .never, p⟩ ⟨depth + 1, stop, p'⟩ →
      Hands p' stop name token tag →
      (tag token).run (parseUntil depth) p'.next.2 = (.error e, q) →
      ∀ bound, fuel ≤ bound → parse bound p = (.error e, q) := by
  have hends {names : List String} {nodes : List Node} {q : Parser}
      (h : parseUntil fuel (.named names) p = (.ok nodes, q)) : EndsAt names q.queue := by
    obtain ⟨⟨depth, hend⟩, -⟩ := parseUntil_eq_ok h
    exact turn?_named_eq_none hend
  refine ⟨fun names nodes q h => ⟨hends h, (parseUntil_eq_ok h).2⟩,
    fun names token outcome => tagName?_ne_of_mem_turns, fun nodes q h => ?_, ?_⟩
  · rw [parse, ← Stop.named_nil] at h
    cases hqueue : q.queue with
    | nil => rfl
    | cons token rest =>
        -- there is no name at which such a parse would end
        obtain ⟨name, -, hmem⟩ := hqueue ▸ hends h
        cases hmem
  · intro depth stop p' name token tag e q hleads hhands hrun bound hle
    have hresult : parseUntil fuel .never p = (.error e, q) :=
      Call.result_of_leads_many hleads (hhands.result_eq hrun)
    rw [parse, parseUntil_mono hle .never p (by simp [hresult]), hresult]

/-- Takes a token and fails. -/
def takeAndFail : Tag := fun _ =>
  .next fun _ => .fail (.misuse "fail" (.other "deep"))

/-- A parser in which `fail` takes a token and fails. -/
def withFailing (tokens : List Token) : Parser :=
  ⟨tokens, Keyed.insert "fail" takeAndFail Tag.builtin, true⟩

/-- The failing tag in a condition, in the second part of a loop. -/
def failingInside : Parser :=
  withFailing [.block "for x in xs", .text "a", .block "empty", .block "if x",
    ⟨.comment, "note"⟩, .block "fail", .text "taken", .text "left"]

/-- The parse of everything ends with the error, in front of the last token. -/
theorem parse_failingInside :
    Relation.ReflTransGen Call.Leads ⟨6, .never, failingInside⟩
        ⟨3, .named ["else", "endif"],
          withFailing [.block "fail", .text "taken", .text "left"]⟩ ∧
      ∀ bound, 6 ≤ bound → parse bound failingInside =
        (.error (.misuse "fail" (.other "deep")), withFailing [.text "left"]) := by
  -- the first part of the loop, and then the condition in the second part
  have hfor : failingInside.Hands .never "for" (.block "for x in xs") Tag.loop :=
    ⟨rfl, rfl, by cbv, by cbv⟩
  have hfirst : parseUntil 5 (.named (Paired.loop "x" ⟨"xs"⟩).stops) failingInside.next.2 =
      (.ok [.text "a"], withFailing [.block "empty", .block "if x", ⟨.comment, "note"⟩,
        .block "fail", .text "taken", .text "left"]) := by cbv
  have hloop : Call.Leads ⟨6, .never, failingInside⟩
      ⟨5, .named ["endfor"], withFailing [.block "if x", ⟨.comment, "note"⟩,
        .block "fail", .text "taken", .text "left"]⟩ :=
    .second hfor rfl (by cbv) hfirst (by cbv)
  have hif : Hands (withFailing [.block "if x", ⟨.comment, "note"⟩, .block "fail",
      .text "taken", .text "left"]) (.named ["endfor"]) "if" (.block "if x") Tag.when :=
    ⟨rfl, by cbv, by cbv, by cbv⟩
  have hopens : Directive.builtin? "if" (.block "if x") =
      some (.ok (.opens (.branch false ⟨"x"⟩))) := by cbv
  have hcondition : Call.Leads _ ⟨4, .named ["else", "endif"],
      withFailing [⟨.comment, "note"⟩, .block "fail", .text "taken", .text "left"]⟩ :=
    .first hif rfl hopens
  have hskip : (withFailing [⟨.comment, "note"⟩, .block "fail", .text "taken",
      .text "left"]).turn? 3 (.named ["else", "endif"]) =
        some (.skip, withFailing [.block "fail", .text "taken", .text "left"]) := rfl
  have hnote : Call.Leads _ ⟨3, .named ["else", "endif"],
      withFailing [.block "fail", .text "taken", .text "left"]⟩ := .turn hskip rfl
  have hleads := ((Relation.ReflTransGen.single hloop).tail hcondition).tail hnote
  have hfail : Hands (withFailing [.block "fail", .text "taken", .text "left"])
      (.named ["else", "endif"]) "fail" (.block "fail") takeAndFail :=
    ⟨rfl, by cbv, by cbv, by cbv⟩
  obtain ⟨-, -, -, herror⟩ := parse_whatever_tags_do 6 failingInside
  exact ⟨hleads, herror 2 _ _ "fail" _ takeAndFail _ _ hleads hfail rfl⟩

end Parser

end Tags

end Templating
