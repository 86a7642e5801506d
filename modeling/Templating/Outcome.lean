/-!
# Outcomes of bounded computations

A computation whose number of steps is bounded ends in one of three ways: with
a value, with an error of its own, or because the bound was reached.

Main definitions: `Outcome`, `Outcome.map`, `Outcome.ofExcept` and
`Outcome.toExcept`, which needs a proof that the bound was not reached.
-/

namespace Templating

section Outcome

/-- A value, an error, or a bound that was reached. -/
inductive Outcome (ε α : Type) where
  | ok (value : α)
  | error (cause : ε)
  | exhausted
deriving Repr

namespace Outcome

variable {ε α β : Type}

/-- Changes the value. -/
def map (f : α → β) : Outcome ε α → Outcome ε β
  | .ok a => .ok (f a)
  | .error e => .error e
  | .exhausted => .exhausted

/-- An outcome that did not reach its bound is a value or an error. -/
def toExcept : (o : Outcome ε α) → o ≠ .exhausted → Except ε α
  | .ok a, _ => .ok a
  | .error e, _ => .error e
  | .exhausted, h => absurd rfl h

/-- The value or error of a computation without a bound. -/
def ofExcept : Except ε α → Outcome ε α
  | .ok a => .ok a
  | .error e => .error e

theorem toExcept_eq_of_eq_ofExcept {o : Outcome ε α} {r : Except ε α}
    (h : o = ofExcept r) (hne : o ≠ .exhausted) : o.toExcept hne = r := by
  subst h
  cases r <;> rfl

theorem ofExcept_toExcept (o : Outcome ε α) (hne : o ≠ .exhausted) :
    ofExcept (o.toExcept hne) = o := by
  cases o with
  | ok a => rfl
  | error e => rfl
  | exhausted => exact absurd rfl hne

theorem ofExcept_injective {r r' : Except ε α} (h : ofExcept r = ofExcept r') :
    r = r' := by
  cases r with
  | ok a =>
      cases r' with
      | ok a' => cases h; rfl
      | error e' => cases h
  | error e =>
      cases r' with
      | ok a' => cases h
      | error e' => cases h; rfl

theorem map_ofExcept (f : α → β) (r : Except ε α) :
    (ofExcept r).map f = ofExcept (r.map f) := by
  cases r <;> rfl

theorem map_id (o : Outcome ε α) : o.map id = o := by
  cases o <;> rfl

theorem map_eq_exhausted_iff (f : α → β) (o : Outcome ε α) :
    o.map f = .exhausted ↔ o = .exhausted := by
  cases o <;> simp [map]

end Outcome

end Outcome

end Templating
