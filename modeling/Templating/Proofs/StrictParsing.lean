import Mathlib.Tactic.SplitIfs
import Templating.Proofs.OnePass

/-!
# Strict and lenient parsing

A directive that nothing waits for and that names no tag is dropped by a lenient
parse and is an error of a strict one.  In all else the two are the same, so that a
strict parse is the lenient one up to the first directive that this one drops.

**Step.**  A strict step is the lenient step, or the lenient step drops the
directive and leaves the pass where it is (`Pass.step_strict_cases`).

**Run.**  By induction on the tokens: either no directive is dropped and both passes
are the same to their end, with the same error and the same tokens left over, or the
strict one ends behind the first directive that is dropped
(`Pass.run_strict_cases`).

Which directives are known depends on the tags that are open where they stand: `else`
closes the first part of a condition and is dropped outside of one.

Main definitions: `Pass.Drops` and `Pass.DropsBehind`.  Main statement:
`parseQueue_strict_cases`.
-/

namespace Templating

section Defs

namespace Pass

/-- The pass drops a directive: the part that is being read does not end at its name,
and it is no built-in tag. -/
structure Drops (s : Pass) (token : Token) (name : String) : Prop where
  named : token.tagName? = some name
  noStop : name ∉ s.stops
  noTag : Directive.builtin? name token = none

/-- The lenient pass comes through the tokens and drops the directive behind them. -/
def DropsBehind (s : Pass) (before : List Token) (token : Token)
    (name : String) : Prop :=
  ∃ t, s.through false before = .ok t ∧ t.Drops token name

end Pass

end Defs

section Step

namespace Pass

variable {s t : Pass} {token : Token} {name : String}

theorem Drops.step_eq (h : s.Drops token name) (strict : Bool) :
    s.step strict token =
      if strict then .error (.unknownTag name) else .ok s := by
  have hkind : token.kind = .block := Token.kind_of_tagName? h.named
  simp only [step, hkind, block, h.named, if_neg h.noStop, h.noTag]

theorem step_strict_cases (s : Pass) (token : Token) :
    (s.step true token = s.step false token ∧ ∀ name, ¬ s.Drops token name) ∨
      ∃ name, s.Drops token name := by
  by_cases hdrops : ∃ name, s.Drops token name
  · exact .inr hdrops
  · refine .inl ⟨?_, fun name h => hdrops ⟨name, h⟩⟩
    unfold step
    split
    · rfl
    · rfl
    · rfl
    · unfold block
      split
      · rfl
      · next name hname =>
          split
          · rfl
          · next hstop =>
              split
              · rfl
              · next htag => exact absurd ⟨name, hname, hstop, htag⟩ hdrops

end Pass

end Step

section Errors

namespace Directive

/-- The arguments of a built-in tag can be wrong, but its name is known. -/
theorem builtin?_ne_unknownTag {name other : String} {token : Token} :
    builtin? name token ≠ some (.error (.unknownTag other)) := by
  have harguments : ∀ count usage,
      arguments token count usage ≠ .error (.unknownTag other) := by
    intro count usage
    unfold arguments
    split <;> simp
  have hmap : ∀ count usage (f : List String → Directive),
      (arguments token count usage).map f ≠ .error (.unknownTag other) := by
    intro count usage f h
    cases hargs : arguments token count usage with
    | ok args =>
        rw [hargs] at h
        cases h
    | error e =>
        rw [hargs] at h
        cases h
        exact harguments count usage hargs
  unfold builtin?
  split_ifs
  · intro h
    have hloop : loop token = .error (.unknownTag other) := Option.some.inj h
    unfold loop at hloop
    split at hloop
    · next e hargs =>
        cases hloop
        exact harguments 3 Tag.loopUsage hargs
    · split at hloop <;> cases hloop
  · exact fun h => hmap _ _ _ (Option.some.inj h)
  · exact fun h => hmap _ _ _ (Option.some.inj h)
  · exact fun h => hmap _ _ _ (Option.some.inj h)
  · intro h
    have hnow : now token = .error (.unknownTag other) := Option.some.inj h
    unfold now at hnow
    split at hnow <;> cases hnow
  · exact fun h => by cases h

end Directive

namespace Pass

theorem step_false_ne_unknownTag (s : Pass) (token : Token) (name : String) :
    s.step false token ≠ .error (.unknownTag name) := by
  unfold step
  split
  · simp
  · simp
  · simp
  · unfold block
    split
    · simp
    · split
      · simp
      · split
        · next directive hdirective =>
            cases directive with
            | ok directive => simp [Except.map]
            | error e =>
                intro h
                cases h
                exact Directive.builtin?_ne_unknownTag hdirective
        · simp

/-- A lenient pass knows every name, or drops it. -/
theorem run_false_ne_unknownTag (s : Pass) (tokens : List Token) (name : String) :
    (s.run false tokens).1 ≠ .error (.unknownTag name) := by
  induction tokens generalizing s with
  | nil =>
      rw [run_nil]
      unfold finish
      split <;> simp
  | cons token rest ih =>
      cases hstep : s.step false token with
      | ok t =>
          rw [run_cons hstep]
          exact ih t
      | error e =>
          rw [run_cons_error hstep]
          rintro ⟨⟩
          exact step_false_ne_unknownTag s token name hstep

end Pass

end Errors

section Run

namespace Pass

variable {s t : Pass} {token : Token} {name : String}

theorem dropsBehind_nil_iff :
    s.DropsBehind [] token name ↔ s.Drops token name := by
  simp [DropsBehind, through]

theorem dropsBehind_cons_iff {first : Token} (h : s.step false first = .ok t)
    (before : List Token) :
    s.DropsBehind (first :: before) token name ↔
      t.DropsBehind before token name := by
  simp only [DropsBehind, through, h, Except.bind]

/-- **A strict pass is the lenient one**, or it ends behind the first directive that
the lenient one drops. -/
theorem run_strict_cases (tokens : List Token) (s : Pass) :
    (s.run true tokens = s.run false tokens ∧
      ∀ before token rest name, tokens = before ++ token :: rest →
        ¬ s.DropsBehind before token name) ∨
    ∃ before token rest name, tokens = before ++ token :: rest ∧
      s.DropsBehind before token name ∧
      s.run true tokens = (.error (.unknownTag name), rest) := by
  induction tokens generalizing s with
  | nil =>
      refine .inl ⟨rfl, fun before token rest name h => ?_⟩
      simp at h
  | cons first tokens ih =>
      rcases s.step_strict_cases first with ⟨hsame, hnone⟩ | ⟨name, hdrops⟩
      · cases hstep : s.step false first with
        | error e =>
            rw [hstep] at hsame
            refine .inl ⟨?_, ?_⟩
            · rw [run_cons_error hstep, run_cons_error hsame]
            · rintro (_ | ⟨second, before⟩) token rest name h hbehind
              · cases h
                exact hnone name (dropsBehind_nil_iff.1 hbehind)
              · -- the lenient pass does not come through the first token
                cases h
                obtain ⟨t, ht, -⟩ := hbehind
                rw [through, hstep] at ht
                cases ht
        | ok t =>
            rw [hstep] at hsame
            rw [run_cons hstep, run_cons hsame]
            rcases ih t with ⟨hrun, hnoDrop⟩ | ⟨before, token, rest, name, h, hbehind, hrun⟩
            · refine .inl ⟨hrun, ?_⟩
              rintro (_ | ⟨second, before⟩) token rest name h hbehind
              · cases h
                exact hnone name (dropsBehind_nil_iff.1 hbehind)
              · cases h
                exact hnoDrop before token rest name rfl
                  ((dropsBehind_cons_iff hstep before).1 hbehind)
            · refine .inr ⟨first :: before, token, rest, name, ?_, ?_, hrun⟩
              · rw [h, List.cons_append]
              · exact (dropsBehind_cons_iff hstep before).2 hbehind
      · have hstep := hdrops.step_eq true
        exact .inr ⟨[], first, tokens, name, rfl, dropsBehind_nil_iff.2 hdrops,
          run_cons_error hstep tokens⟩

/-- A directive that is dropped might as well not be there. -/
theorem DropsBehind.run_eq {before : List Token}
    (h : s.DropsBehind before token name) (rest : List Token) :
    s.run false (before ++ token :: rest) = s.run false (before ++ rest) := by
  obtain ⟨t, hthrough, hdrops⟩ := h
  rw [run_append hthrough, run_append hthrough, run_cons (hdrops.step_eq false)]

end Pass

end Run

section Parser

/-- **Strict parsing only adds unknown tags.** Either a lenient parse drops nothing,
and a strict one gives the same nodes or the same error, which is not about an unknown
tag, and leaves the same tokens; or a strict parse fails at the first directive that
the lenient one drops, with the name of this directive. -/
theorem parseQueue_strict_cases (tokens : List Token) :
    (parseQueue true tokens = parseQueue false tokens ∧
      (∀ name, (parseQueue false tokens).1 ≠ .error (.unknownTag name)) ∧
      ∀ before token rest name, tokens = before ++ token :: rest →
        ¬ Pass.start.DropsBehind before token name) ∨
    ∃ before token rest name, tokens = before ++ token :: rest ∧
      token.kind = .block ∧ token.tagName? = some name ∧
      Pass.start.DropsBehind before token name ∧
      parseQueue false tokens = parseQueue false (before ++ rest) ∧
      parseQueue true tokens = (.error (.unknownTag name), rest) := by
  have hpass : ∀ strict tokens, parseQueue strict tokens = Pass.start.run strict tokens :=
    fun strict tokens =>
      Prod.ext (parseTokens_eq_run strict tokens) (leftover_eq_run strict tokens)
  simp only [hpass]
  rcases Pass.run_strict_cases tokens .start with
    ⟨hrun, hnone⟩ | ⟨before, token, rest, name, htokens, hbehind, hrun⟩
  · exact .inl ⟨hrun, Pass.run_false_ne_unknownTag .start tokens, hnone⟩
  · have hname : token.tagName? = some name := by
      obtain ⟨t, -, hdrops⟩ := hbehind
      exact hdrops.named
    refine .inr ⟨before, token, rest, name, htokens,
      Token.kind_of_tagName? hname, hname, hbehind, ?_, hrun⟩
    rw [htokens]
    exact hbehind.run_eq rest

/-- Outside of a condition `else` is an unknown tag, inside it is none. -/
example :
    parseQueue true [.block "if x", .block "else", .block "endif"] =
        (.ok [.branch ⟨"x"⟩ [] []], []) ∧
      parseQueue true [.block "else", .block "endif"] =
        (.error (.unknownTag "else"), [.block "endif"]) := by
  constructor <;> cbv

end Parser

end Templating
