import Templating.Parser.Custom
import Templating.Proofs.ParserSimulation

/-!
# Tags that stand for tokens

A tag that puts tokens back in front of the queue stands for these tokens.  This module
shows that a parse with such a tag is a parse of the tokens in which each directive of
the tag is replaced, whatever the tokens open, divide or close.

**Two parsers side by side.**  One has the queue as it is and the tag beside the built-in
ones; the other has the queue in which the directives are replaced, and the built-in tags
only.  The two take one turn each at a time: where the first hands a directive to the tag,
the second places an empty text (`Macro.takesTurns`).

**Invariant.**  What is left over in the second parser is what is left over in the first,
with the directives replaced (`Macro.Stands`).  The names at which parts of the built-in
tags end are not the name of the tag, so that both parsers look ahead at the same
directive.  The invariant then holds through all the calls that have not returned, the
innermost of which ends when the tokens that were put back say so.

Main definitions: `Macro` and `Macro.expanded`.  Main statements: `Macro.parse_alike` and
`Macro.parse_expanded`.
-/

namespace Templating

section Macro

/-- A tag that stands for tokens: it puts them in front of the queue, in order, and leaves
an empty text. -/
structure Macro where
  name : String
  body : List Token
  tag : Tag
  /-- What the tag does in any parser, however that parses bodies. -/
  run_tag : ∀ (token : Token) (parse : Stop → Parser → Parsed (List Node)) (p : Parser),
    (tag token).run parse p = (.ok (.text ""), { p with queue := body ++ p.queue })
  name_not_mem_ends : name ∉ Paired.ends
  /-- The tokens do not call the tag again. -/
  name_free : ∀ token ∈ body, token.tagName? ≠ some name

/-- Tokens that a script puts back, the last one first, and what it does then. -/
theorem Script.run_foldl_prepend (tokens : List Token)
    (parse : Stop → Parser → Parsed (List Node)) (script : Script) (p : Parser) :
    (tokens.foldl (fun script token => .prepend token script) script).run parse p =
      script.run parse { p with queue := tokens ++ p.queue } := by
  induction tokens generalizing script with
  | nil => rfl
  | cons token rest ih =>
      rw [List.foldl_cons, ih]
      rfl

theorem Tag.run_expand (tokens : List Token) (token : Token)
    (parse : Stop → Parser → Parsed (List Node)) (p : Parser) :
    (expand tokens token).run parse p =
      (.ok (.text ""), { p with queue := tokens ++ p.queue }) :=
  Script.run_foldl_prepend tokens parse (.done (.text "")) p

namespace Macro

variable (M : Macro)

/-- A directive of the tag is replaced by an empty text and the tokens that the tag stands
for. -/
def replace (token : Token) : List Token :=
  if token.tagName? = some M.name then .text "" :: M.body else [token]

/-- The tokens with all directives of the tag replaced. -/
def expanded (tokens : List Token) : List Token :=
  tokens.flatMap M.replace

/-- A parser for tokens with the built-in tags and the tag, in place of a built-in one of
the same name. -/
def parser (strict : Bool) (tokens : List Token) : Parser :=
  (Parser.ofTokens strict tokens).register M.name M.tag

variable {M}

theorem replace_named {token : Token} (h : token.tagName? = some M.name) :
    M.replace token = .text "" :: M.body :=
  if_pos h

theorem replace_of_ne {token : Token} (h : token.tagName? ≠ some M.name) :
    M.replace token = [token] :=
  if_neg h

theorem expanded_append (front back : List Token) :
    M.expanded (front ++ back) = M.expanded front ++ M.expanded back :=
  List.flatMap_append

theorem expanded_cons_named {token : Token} (h : token.tagName? = some M.name)
    (rest : List Token) :
    M.expanded (token :: rest) = .text "" :: (M.body ++ M.expanded rest) := by
  simp [expanded, replace_named h]

theorem expanded_cons_of_ne {token : Token} (h : token.tagName? ≠ some M.name)
    (rest : List Token) : M.expanded (token :: rest) = token :: M.expanded rest := by
  simp [expanded, replace_of_ne h]

/-- Without directives of the tag nothing is replaced. -/
theorem expanded_of_free {tokens : List Token}
    (h : ∀ token ∈ tokens, token.tagName? ≠ some M.name) : M.expanded tokens = tokens := by
  induction tokens with
  | nil => rfl
  | cons token rest ih =>
      rw [expanded_cons_of_ne (h token List.mem_cons_self),
        ih fun token hmem => h token (List.mem_cons_of_mem _ hmem)]

theorem expanded_body : M.expanded M.body = M.body :=
  expanded_of_free M.name_free

theorem tagName?_ne_of_mem_expanded {tokens : List Token} {token : Token}
    (h : token ∈ M.expanded tokens) : token.tagName? ≠ some M.name := by
  obtain ⟨source, -, hmem⟩ := List.mem_flatMap.1 h
  by_cases hname : source.tagName? = some M.name
  · rw [replace_named hname] at hmem
    rcases List.mem_cons.1 hmem with rfl | hbody
    · simp
    · exact M.name_free token hbody
  · rw [replace_of_ne hname, List.mem_singleton] at hmem
    exact hmem ▸ hname

/-- All directives of the tag are replaced at once. -/
theorem expanded_expanded (tokens : List Token) :
    M.expanded (M.expanded tokens) = M.expanded tokens :=
  expanded_of_free fun _ => tagName?_ne_of_mem_expanded

end Macro

end Macro

section Turns

namespace Macro

variable {M : Macro} {strict : Bool} {fuel : Nat} {names : List String}

/-- One parser has some tokens and the tag, and the other these tokens with the directives
of the tag replaced, and the built-in tags only. -/
inductive Stands (M : Macro) (strict : Bool) : Parser → Parser → Prop
  | intro (queue : List Token) :
      Stands M strict (M.parser strict queue) (.ofTokens strict (M.expanded queue))

/-- A directive at which a part ends is not replaced. -/
theorem looksAhead (M : Macro) (strict : Bool) : LooksAhead (M.Stands strict) := by
  rintro p p' ⟨queue⟩ hends
  cases queue with
  | nil => exact ⟨rfl, .intro []⟩
  | cons token rest =>
      obtain ⟨name, hname, hmem⟩ := hends
      have hne : token.tagName? ≠ some M.name := by
        rw [hname]
        exact fun h => M.name_not_mem_ends (Option.some.inj h ▸ hmem)
      rw [expanded_cons_of_ne hne]
      exact ⟨rfl, .intro rest⟩

theorem find?_of_ne {name : String} (h : name ≠ M.name) :
    Keyed.find? name (Keyed.insert M.name M.tag Tag.builtin) = Keyed.find? name Tag.builtin :=
  Keyed.find?_insert_of_ne M.tag Tag.builtin h

/-- A directive of the tag, and the empty text in its place. -/
theorem turn?_named {token : Token} {rest : List Token} {p' : Parser}
    (hnames : M.name ∉ names) (h : token.tagName? = some M.name) :
    TurnsAlike (M.Stands strict) False p'
      ((M.parser strict (token :: rest)).turn? fuel (.named names))
      ((Parser.ofTokens strict (M.expanded (token :: rest))).turn? fuel (.named names)) := by
  have hgoesOn (view : View) : Stop.named names view token = false := by
    simpa [Stop.named, h] using hnames
  have hturn : (M.parser strict (token :: rest)).turn? fuel (.named names) =
      some (.dispatch token (.ok (.text "")), M.parser strict (M.body ++ rest)) := by
    simp [Parser.turn?, parser, Parser.ofTokens, Parser.register, Token.kind_of_tagName? h,
      hgoesOn, h, M.run_tag]
  have hrest : M.expanded (token :: rest) = .text "" :: M.expanded (M.body ++ rest) := by
    rw [expanded_cons_named h, expanded_append, expanded_body]
  have hplace (queue : List Token) :
      (Parser.ofTokens strict (.text "" :: queue)).turn? fuel (.named names) =
        some (.place (.text ""), .ofTokens strict queue) := rfl
  have houtcome : (Turn.dispatch token (.ok (.text ""))).outcome =
      (Turn.place (.text "")).outcome := rfl
  rw [hturn, hrest, hplace]
  exact .both houtcome (.intro (M.body ++ rest))

/-- **One turn each.** -/
theorem takesTurns (M : Macro) (strict : Bool) : TakesTurns (M.Stands strict) False := by
  rintro fuel hparts names p p' hends ⟨queue⟩
  have hnames : M.name ∉ names := fun h => M.name_not_mem_ends (hends _ h)
  cases queue with
  | nil => exact .none
  | cons token rest =>
      by_cases htoken : token.tagName? = some M.name
      · exact turn?_named hnames htoken
      · rw [expanded_cons_of_ne htoken]
        refine turnsAlike_front (M.looksAhead strict) hparts (.intro rest) ?_ names
        intro name hname
        have hne : name ≠ M.name := fun h => htoken (h ▸ hname)
        exact ⟨find?_of_ne hne, rfl⟩

end Macro

end Turns

section Runs

namespace Macro

/-- **A parse ends alike** with the tag and with its directives replaced: with the same
outcome, and what the first leaves, the second leaves with the directives replaced. -/
theorem parse_alike (M : Macro) (strict : Bool) (fuel : Nat) (tokens : List Token) :
    EndsAlike (M.Stands strict) False (Parser.parse fuel (M.parser strict tokens))
      (Parser.parse fuel (.ofTokens strict (M.expanded tokens))) := by
  unfold Parser.parse
  rw [← Stop.named_nil]
  exact (M.takesTurns strict).partsAlike fuel [] _ _ (by simp) (.intro tokens)

variable {M : Macro} {strict : Bool} {α : Type} {r r' : Parsed α}

theorem outcome_eq (h : EndsAlike (M.Stands strict) False r r') : r.1 = r'.1 := by
  cases h with
  | same outcome h => rfl
  | exhausted hlax p r' => exact hlax.elim

theorem expanded_queue (h : EndsAlike (M.Stands strict) False r r') :
    M.expanded r.2.queue = r'.2.queue := by
  cases h with
  | same outcome h =>
      cases h
      rfl
  | exhausted hlax p r' => exact hlax.elim

/-- **A tag that puts tokens back stands for them.**  A parse ends as one of the tokens in
which the directives of the tag are replaced, with the tag or with the built-in tags only;
for these a bound above the number of tokens is not reached.  What it leaves is what that
one leaves, once the directives in it are replaced. -/
theorem parse_expanded (M : Macro) (strict : Bool) (tokens : List Token) {bound : Nat}
    (h : (M.expanded tokens).length < bound) :
    (Parser.parse bound (M.parser strict tokens)).1 =
        (Parser.parse bound (M.parser strict (M.expanded tokens))).1 ∧
      (Parser.parse bound (M.parser strict tokens)).1 =
        .ofExcept (parseTokens strict (M.expanded tokens)) ∧
      M.expanded (Parser.parse bound (M.parser strict tokens)).2.queue =
        (parseQueue strict (M.expanded tokens)).2 := by
  have hplain := Parser.parse_ofTokens strict h
  rw [← parseQueue_eq_run] at hplain
  have hkept := parse_alike M strict bound tokens
  have hreplaced := parse_alike M strict bound (M.expanded tokens)
  rw [expanded_expanded] at hreplaced
  refine ⟨(outcome_eq hkept).trans (outcome_eq hreplaced).symm, ?_, ?_⟩
  · rw [outcome_eq hkept, hplain]
    rfl
  · rw [expanded_queue hkept, hplain]
    rfl

/-- A directive that ends a loop and begins a condition. -/
def turnover : Macro where
  name := "turnover"
  body := [.block "endfor", .block "if y"]
  tag := .expand [.block "endfor", .block "if y"]
  run_tag := Tag.run_expand _
  name_not_mem_ends := by decide
  name_free := by
    intro token hmem
    simp only [List.mem_cons, List.not_mem_nil, or_false] at hmem
    rcases hmem with rfl | rfl
    · have hname : (Token.block "endfor").tagName? = some "endfor" := by cbv
      simp [hname]
    · have hname : (Token.block "if y").tagName? = some "if" := by cbv
      simp [hname]

/-- A loop that is open where the directive stands, and the end of a condition behind it. -/
def overlapping : List Token :=
  [.block "for x in xs", .text "a", .block "turnover now", .text "b", .block "endif"]

/-- The directive stands inside the loop, and what follows it inside the condition. -/
theorem parse_overlapping :
    (turnover.expanded overlapping).length < 8 ∧
      (Parser.parse 8 (turnover.parser true overlapping)).1 =
        .ok [.loop "x" ⟨"xs"⟩ [.text "a", .text ""] [], .branch ⟨"y"⟩ [.text "b"] []] := by
  have hexpanded : turnover.expanded overlapping = [.block "for x in xs", .text "a",
      .text "", .block "endfor", .block "if y", .text "b", .block "endif"] := by cbv
  have hlength : (turnover.expanded overlapping).length < 8 := by
    rw [hexpanded]
    decide
  obtain ⟨-, hparse, -⟩ := parse_expanded turnover true overlapping hlength
  refine ⟨hlength, ?_⟩
  rw [hparse, hexpanded]
  cbv

end Macro

end Runs

end Templating
