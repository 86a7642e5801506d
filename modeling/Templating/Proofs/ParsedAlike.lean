import Templating.Proofs.OnePass
import Templating.Proofs.Words

/-!
# Tokens that are parsed alike

A parse reads less of its tokens than they hold.

**Directives.**  Of a directive it reads the components: the name of the tag, the
arguments, and what an error says of them.  So a directive can be written with other
blanks (`Pass.step_respaced`).

**Skipped tokens.**  A comment, a directive without words and, if the parse is lenient, a
directive with a name that no tag has and at which no body ends leave the pass where it
is (`Token.Skippable.step_eq`).  So such tokens can be taken out anywhere, inside of
bodies, beside their dividers and in front of their ends.

From both, the run follows by induction on the tokens, with the same error where there is
one, and the tokens left over change in the same way.

Main definitions: `Token.respaced`, `Token.Skippable` and `Thinned`.  Main statements:
`parseTokens_map_respaced` and `parseTokens_thinned`.
-/

namespace Templating

open Text Token

section Defs

/-- A directive with single spaces between its components; any other token as it is. -/
def Token.respaced (token : Token) : Token :=
  if token.kind = .block then token.singleSpaced else token

/-- All names that mean something in a directive: those of the built-in tags, and those
that divide or close one. -/
def Tag.knownNames : List String :=
  ["for", "if", "ifnot", "now", "include", "endfor", "empty", "else", "endif"]

/-- A token that a parse passes over, wherever it stands. -/
inductive Token.Skippable (strict : Bool) (token : Token) : Prop where
  | comment (hkind : token.kind = .comment)
  | blank (hkind : token.kind = .block)
      (hblank : ∀ c ∈ token.payload.toList, isBlank c = true)
  /-- Only a parse that is not strict passes over an unknown name. -/
  | unknown {name : String} (hstrict : strict = false)
      (hname : token.tagName? = some name) (hunknown : name ∉ Tag.knownNames)

/-- Some of the tokens for which `skip` holds have been taken out. -/
inductive Thinned (skip : Token → Prop) : List Token → List Token → Prop where
  | nil : Thinned skip [] []
  | keep (token : Token) {tokens thinned : List Token}
      (rest : Thinned skip tokens thinned) :
      Thinned skip (token :: tokens) (token :: thinned)
  | drop {token : Token} {tokens thinned : List Token} (hskip : skip token)
      (rest : Thinned skip tokens thinned) :
      Thinned skip (token :: tokens) thinned

theorem Thinned.refl (skip : Token → Prop) (tokens : List Token) :
    Thinned skip tokens tokens := by
  induction tokens with
  | nil => exact .nil
  | cons token tokens ih => exact .keep token ih

end Defs

section Respaced

variable {strict : Bool} {token other : Token} {name : String}

/-- The arguments of a tag are checked on the components. -/
theorem Directive.builtin?_congr (h : token.components = other.components) :
    builtin? name token = builtin? name other := by
  have harguments : token.arguments = other.arguments := by
    rw [Token.arguments, Token.arguments, h]
  simp only [builtin?, loop, branch, inclusion, now, arguments, harguments, h]

namespace Pass

theorem block_congr (s : Pass) (hname : token.tagName? = other.tagName?)
    (h : token.components = other.components) :
    s.block strict token = s.block strict other := by
  simp only [block, hname, Directive.builtin?_congr h]

/-- **A step does not see the blanks of a directive.** -/
@[simp] theorem step_respaced (s : Pass) (token : Token) :
    s.step strict token.respaced = s.step strict token := by
  unfold Token.respaced
  split
  · next hkind =>
      have hkind' : token.singleSpaced.kind = .block := hkind
      have hcomponents := token.components_singleSpaced
      have hname : token.singleSpaced.tagName? = token.tagName? := by
        rw [tagName?, tagName?, hkind, hkind', hcomponents]
      simp only [step, hkind, hkind']
      exact s.block_congr hname hcomponents
  · rfl

theorem run_map_respaced (s : Pass) (tokens : List Token) :
    s.run strict (tokens.map Token.respaced) =
      (s.run strict tokens).map id (List.map Token.respaced) := by
  induction tokens generalizing s with
  | nil => rfl
  | cons token tokens ih =>
      rw [List.map_cons]
      cases hstep : s.step strict token with
      | ok t =>
          have hstep' : s.step strict token.respaced = .ok t := by rw [step_respaced, hstep]
          rw [run_cons hstep', run_cons hstep, ih]
      | error e =>
          have hstep' : s.step strict token.respaced = .error e := by
            rw [step_respaced, hstep]
          rw [run_cons_error hstep', run_cons_error hstep]
          rfl

end Pass

/-- **Parsing ignores the blanks of directives.** With single spaces between the
components of all directives, the nodes are the same, or the error with all that it
says; the tokens left over have the single spaces. -/
theorem parseTokens_map_respaced (strict : Bool) (tokens : List Token) :
    parseTokens strict (tokens.map Token.respaced) = parseTokens strict tokens ∧
      (parseQueue strict (tokens.map Token.respaced)).2 =
        (parseQueue strict tokens).2.map Token.respaced := by
  have hrun := @Pass.run_map_respaced strict .start tokens
  constructor
  · rw [parseTokens_eq_run, parseTokens_eq_run, hrun]
    rfl
  · rw [leftover_eq_run, leftover_eq_run, hrun]
    rfl

end Respaced

section Skipped

variable {strict : Bool} {token : Token} {name : String}

theorem Directive.builtin?_eq_none (h : name ∉ Tag.knownNames) :
    builtin? name token = none := by
  simp only [Tag.knownNames, List.mem_cons, not_or] at h
  simp [builtin?, h]

theorem Paired.mem_knownNames (t : Paired) :
    t.closing ∈ Tag.knownNames ∧ t.divider ∈ Tag.knownNames := by
  cases t with
  | loop item source => simp [closing, divider, Tag.knownNames]
  | branch negated condition => simp [closing, divider, Tag.knownNames]

theorem Pass.mem_knownNames_of_mem_stops {s : Pass} (h : name ∈ s.stops) :
    name ∈ Tag.knownNames := by
  obtain ⟨bottom, tags⟩ := s
  cases tags with
  | nil => cases h
  | cons f outer =>
      rcases OpenTag.eq_of_mem_stops h with rfl | rfl
      · exact f.paired.mem_knownNames.1
      · exact f.paired.mem_knownNames.2

/-- **A skipped token leaves every pass where it is.** -/
theorem Token.Skippable.step_eq (h : token.Skippable strict) (s : Pass) :
    s.step strict token = .ok s := by
  cases h with
  | comment hkind => simp only [Pass.step, hkind]
  | blank hkind hblank =>
      have hcomponents : token.components = [] := by
        rw [components, splitComponents_eq_nil_iff.2 hblank, List.map_nil]
      have hname : token.tagName? = none := by
        rw [tagName?, if_pos hkind, hcomponents, List.head?_nil]
      simp only [Pass.step, hkind, Pass.block, hname]
  | unknown hstrict hname hunknown =>
      have hstop : _ ∉ s.stops := fun hmem => hunknown (s.mem_knownNames_of_mem_stops hmem)
      exact Pass.step_eq_ok_iff.2
        (.drop hstrict hname hstop (Directive.builtin?_eq_none hunknown))

theorem Thinned.run_eq {tokens thinned : List Token}
    (h : Thinned (Skippable strict) tokens thinned) (s : Pass) :
    (s.run strict thinned).1 = (s.run strict tokens).1 ∧
      Thinned (Skippable strict) (s.run strict tokens).2 (s.run strict thinned).2 := by
  induction h generalizing s with
  | nil => exact ⟨rfl, .nil⟩
  | keep token rest ih =>
      cases hstep : s.step strict token with
      | ok t =>
          rw [Pass.run_cons hstep, Pass.run_cons hstep]
          exact ih t
      | error e =>
          rw [Pass.run_cons_error hstep, Pass.run_cons_error hstep]
          exact ⟨rfl, rest⟩
  | drop hskip rest ih =>
      rw [Pass.run_cons (hskip.step_eq s)]
      exact ih s

/-- **Skipped tokens can be taken out anywhere**: the nodes stay the same, or the error,
and of the tokens left over skipped ones are missing at most. -/
theorem parseTokens_thinned {strict : Bool} {tokens thinned : List Token}
    (h : Thinned (Skippable strict) tokens thinned) :
    parseTokens strict thinned = parseTokens strict tokens ∧
      Thinned (Skippable strict) (parseQueue strict tokens).2
        (parseQueue strict thinned).2 := by
  simp only [parseTokens_eq_run, leftover_eq_run]
  exact h.run_eq .start

/-- A loop with a comment in its body, an unknown directive in front of the divider, and
a directive without words behind it. -/
def annotatedLoop : List Token :=
  [⟨.block, "for x in xs"⟩, ⟨.comment, "note"⟩, ⟨.placeholder, "x"⟩, ⟨.block, "debug x"⟩,
    ⟨.block, "empty"⟩, ⟨.block, " "⟩, ⟨.text, "none"⟩, ⟨.block, "endfor"⟩]

/-- The loop without the directives that are skipped. -/
def annotatedLoopThinned : List Token :=
  [⟨.block, "for x in xs"⟩, ⟨.comment, "note"⟩, ⟨.placeholder, "x"⟩, ⟨.block, "empty"⟩,
    ⟨.text, "none"⟩, ⟨.block, "endfor"⟩]

theorem parseTokens_annotatedLoop :
    Thinned (Skippable false) annotatedLoop annotatedLoopThinned ∧
      parseTokens false annotatedLoopThinned = parseTokens false annotatedLoop ∧
      parseTokens false annotatedLoop =
        .ok [.loop "x" ⟨"xs"⟩ [.placeholder ⟨"x"⟩] [.text "none"]] := by
  have hname : Token.tagName? ⟨.block, "debug x"⟩ = some "debug" := by cbv
  have hdebug : Skippable false ⟨.block, "debug x"⟩ := .unknown rfl hname (by decide)
  have hblank : Skippable false ⟨.block, " "⟩ :=
    .blank rfl (by simp [isBlank])
  have hthinned : Thinned (Skippable false) annotatedLoop annotatedLoopThinned :=
    .keep _ (.keep _ (.keep _ (.drop hdebug (.keep _ (.drop hblank (.refl _ _))))))
  refine ⟨hthinned, (parseTokens_thinned hthinned).1, ?_⟩
  cbv

end Skipped

end Templating
