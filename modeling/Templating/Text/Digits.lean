/-!
# Digits

The digits of a number in a base of at most sixteen, from the highest to the
lowest, and the number that they have. Digits above nine are letters of either
case; numbers are written with small ones.

Main definitions: `isHexDigit` and `ofDigits`. Main statement:
`ofDigits_toDigits`, the digits of a number give the number back.
-/

namespace Templating
namespace Text

section Digits

/-- The value of a digit in a base of at most sixteen. -/
def digitValue (c : Char) : Nat :=
  if c.isDigit then c.toNat - 48
  else if 'a' ≤ c ∧ c ≤ 'f' then c.toNat - 87
  else c.toNat - 55

/-- Whether a character is a hexadecimal digit. -/
def isHexDigit (c : Char) : Bool :=
  c.isDigit || ('a' ≤ c && c ≤ 'f') || ('A' ≤ c && c ≤ 'F')

/-- The number that digits have in a base. -/
def ofDigits (base : Nat) (cs : List Char) : Nat :=
  cs.foldl (fun n c => n * base + digitValue c) 0

end Digits

section Written

theorem digitValue_digitChar {d : Nat} (h : d < 16) :
    digitValue d.digitChar = d ∧ isHexDigit d.digitChar = true := by
  have hall : ∀ d < 16,
      digitValue (Nat.digitChar d) = d ∧ isHexDigit (Nat.digitChar d) = true := by decide
  exact hall d h

variable {base : Nat} (hlow : 1 < base) (hhigh : base ≤ 16)
include hlow hhigh

/-- The digits of a number give the number. -/
theorem ofDigits_toDigits (n : Nat) : ofDigits base (Nat.toDigits base n) = n := by
  induction n using Nat.strongRecOn with
  | ind n ih =>
      rw [Nat.toDigits_eq_if hlow]
      split
      · next hlt => simp [ofDigits, (digitValue_digitChar (Nat.lt_of_lt_of_le hlt hhigh)).1]
      · next hge =>
          have hfront : ofDigits base (Nat.toDigits base (n / base)) = n / base :=
            ih (n / base) (Nat.div_lt_self (by omega) hlow)
          have hlast : n % base < 16 :=
            Nat.lt_of_lt_of_le (Nat.mod_lt n (by omega)) hhigh
          rw [ofDigits, List.foldl_append, ← ofDigits, hfront, List.foldl_cons,
            List.foldl_nil, (digitValue_digitChar hlast).1, Nat.div_add_mod']

theorem isHexDigit_of_mem_toDigits {n : Nat} {c : Char} (h : c ∈ Nat.toDigits base n) :
    isHexDigit c = true := by
  induction n using Nat.strongRecOn with
  | ind n ih =>
      rw [Nat.toDigits_eq_if hlow] at h
      split at h
      · next hlt =>
          obtain rfl := List.mem_singleton.1 h
          exact (digitValue_digitChar (Nat.lt_of_lt_of_le hlt hhigh)).2
      · next hge =>
          rcases List.mem_append.1 h with h | h
          · exact ih (n / base) (Nat.div_lt_self (by omega) hlow) h
          · obtain rfl := List.mem_singleton.1 h
            have hlast : n % base < 16 :=
              Nat.lt_of_lt_of_le (Nat.mod_lt n (by omega)) hhigh
            exact (digitValue_digitChar hlast).2

end Written

end Text
end Templating
