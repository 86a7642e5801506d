import Templating.Json.Reader
import Templating.Json.Writer

/-!
# Strings in JSON

Quotes, backslashes and control characters are written as escapes, all other characters as
they are.  This module shows that the reader undoes this, one character at a time and then
for a whole string, whatever follows it.

Main statement: `Json.readString_written`.
-/

namespace Templating
namespace Json

section Digits

theorem hexValue?_hexDigit {n : Nat} (h : n < 16) : hexValue? (hexDigit n) = some n := by
  have hall : ∀ n < 16, hexValue? (hexDigit n) = some n := by decide
  exact hall n h

/-- Four digits of a number are read back as the number. -/
theorem hex4_cases {n : Nat} (h : n < 65536) :
    ∃ a b c d, hex4 n = [a, b, c, d] ∧ hex4? a b c d = some n := by
  refine ⟨_, _, _, _, rfl, ?_⟩
  have hlow (k : Nat) : hexValue? (hexDigit (k % 16)) = some (k % 16) :=
    hexValue?_hexDigit (Nat.mod_lt k (by decide))
  simp only [hex4?, hlow, bind, Option.bind_some, Option.some.injEq]
  omega

end Digits

section Characters

variable {c : Char}

/-- A character that stands for itself in a string. -/
theorem readString_cons (hcontrol : ¬ c.toNat < 0x20) (hquote : c ≠ '"')
    (hbackslash : c ≠ '\\') (rest : List Char) :
    readString (c :: rest) = (readString rest).map (Prod.map (c :: ·) id) := by
  rw [readString]
  · simp [hcontrol, hbackslash]
  · simpa using hquote
  · simp [hbackslash]
  · simp [hbackslash]

/-- A character that is written as a backslash and a letter. -/
theorem readString_letter {e : Char} (he : e ≠ 'u') (h : escaped? e = some c)
    (rest : List Char) :
    readString ('\\' :: e :: rest) = (readString rest).map (Prod.map (c :: ·) id) := by
  simp [readString, he, h]

/-- A control character that is written by its number. -/
theorem readString_hex4 (h : c.toNat < 0x20) (rest : List Char) :
    readString ('\\' :: 'u' :: (hex4 c.toNat ++ rest)) =
      (readString rest).map (Prod.map (c :: ·) id) := by
  obtain ⟨x, y, z, w, hdigits, hvalue⟩ := hex4_cases (Nat.lt_trans h (by decide))
  have hhigh : isHighSurrogate c.toNat = false := by
    simp [isHighSurrogate]
    omega
  have hlow : isLowSurrogate c.toNat = false := by
    simp [isLowSurrogate]
    omega
  rw [hdigits]
  simp [readString, hvalue, hhigh, hlow]

/-- **One character is read back**, in whatever way it is written. -/
theorem readString_escapeChar (c : Char) (rest : List Char) :
    readString (escapeChar c ++ rest) = (readString rest).map (Prod.map (c :: ·) id) := by
  unfold escapeChar
  split
  · next h =>
      subst h
      exact readString_letter (by decide) rfl rest
  split
  · next h =>
      subst h
      exact readString_letter (by decide) rfl rest
  split
  · next h =>
      subst h
      exact readString_letter (by decide) rfl rest
  split
  · next h =>
      subst h
      exact readString_letter (by decide) rfl rest
  split
  · next h =>
      subst h
      exact readString_letter (by decide) rfl rest
  split
  · next h =>
      subst h
      exact readString_letter (by decide) rfl rest
  split
  · next h =>
      subst h
      exact readString_letter (by decide) rfl rest
  split
  · next hcontrol => exact readString_hex4 hcontrol rest
  · next hquote hbackslash _ _ _ _ _ hcontrol =>
      exact readString_cons hcontrol hquote hbackslash rest

/-- **A string is read back**, and what follows its closing quote is left. -/
theorem readString_written (cs rest : List Char) :
    readString (cs.flatMap escapeChar ++ '"' :: rest) = some (cs, rest) := by
  induction cs with
  | nil => simp [readString]
  | cons c cs ih =>
      rw [List.flatMap_cons, List.append_assoc, readString_escapeChar, ih]
      rfl

end Characters

end Json
end Templating
