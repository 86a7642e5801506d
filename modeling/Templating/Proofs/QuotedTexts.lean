import Templating.Text.Digits
import Templating.Text.Quoted

/-!
# Quoted texts are read back

Inside quotes a character stands for itself, or it is written as a backslash and a letter, or
as a backslash and its code point between braces.  None of these forms can be taken for another
one: a backslash never stands for itself, no letter of an escape is a `u`, and the digits of a
code point end at the brace.  This module reads one character from the front of a text, whatever
follows it, and concludes that different texts have different quoted forms, each on one line.

Main statements: `readQuotedChar_quotedChar` and `quotedChars_injective`.
-/

namespace Templating
namespace Text

section Characters

/-- The character that an escape of one letter stands for. -/
def unescaped? : Char → Option Char
  | '0' => some '\x00'
  | 't' => some '\t'
  | 'r' => some '\r'
  | 'n' => some '\n'
  | '"' => some '"'
  | '\\' => some '\\'
  | _ => none

/-- The character of an escape, after the backslash, and what follows it. -/
def readEscaped : List Char → Option (Char × List Char)
  | 'u' :: '{' :: rest =>
      some (Char.ofNat (ofDigits 16 (rest.takeWhile (· ≠ '}'))),
        (rest.dropWhile (· ≠ '}')).tail)
  | letter :: rest => (unescaped? letter).map (·, rest)
  | [] => none

/-- The first character of a text inside quotes, and what follows it. -/
def readQuotedChar : List Char → Option (Char × List Char)
  | c :: rest => if c = '\\' then readEscaped rest else some (c, rest)
  | [] => none

/-- A code point is read up to its brace. -/
theorem readEscaped_codePoint (c : Char) (rest : List Char) :
    readEscaped ('u' :: '{' :: (Nat.toDigits 16 c.toNat ++ '}' :: rest)) =
      some (c, rest) := by
  have hdigits : ∀ d ∈ Nat.toDigits 16 c.toNat, decide (d ≠ '}') = true := by
    intro d hd
    refine decide_eq_true ?_
    rintro rfl
    exact absurd (isHexDigit_of_mem_toDigits (by decide) (by decide) hd) (by decide)
  simp only [readEscaped]
  rw [List.takeWhile_append_of_pos hdigits, List.dropWhile_append_of_pos hdigits]
  simp [ofDigits_toDigits]

/-- **One character is read back**, in whatever way it is written. -/
theorem readQuotedChar_quotedChar (c : Char) (rest : List Char) :
    readQuotedChar (quotedChar c ++ rest) = some (c, rest) := by
  unfold quotedChar
  split
  -- All characters but those with an escape of one letter.
  case h_7 hbackslash =>
    split
    · exact if_neg hbackslash
    · simpa [readQuotedChar] using readEscaped_codePoint c rest
  all_goals rfl

/-- A line feed is always escaped, and no escape has one. -/
theorem lineFeed_not_mem_quotedChar (c : Char) : '\n' ∉ quotedChar c := by
  unfold quotedChar
  split
  case h_7 hlineFeed _ _ =>
    split
    · simpa using Ne.symm hlineFeed
    · have hdigits : '\n' ∉ Nat.toDigits 16 c.toNat := fun h =>
        absurd (isHexDigit_of_mem_toDigits (by decide) (by decide) h) (by decide)
      simp [hdigits]
  all_goals decide

end Characters

section Texts

theorem readQuotedChar_flatMap (c : Char) (cs : List Char) :
    readQuotedChar ((c :: cs).flatMap quotedChar) = some (c, cs.flatMap quotedChar) :=
  readQuotedChar_quotedChar c (cs.flatMap quotedChar)

/-- What is read from the front tells whether there is a first character, and which one. -/
theorem eq_of_flatMap_quotedChar_eq {cs ds : List Char}
    (h : cs.flatMap quotedChar = ds.flatMap quotedChar) : cs = ds := by
  induction cs generalizing ds with
  | nil =>
      cases ds with
      | nil => rfl
      | cons d ds =>
          have hfront := readQuotedChar_flatMap d ds
          rw [← h] at hfront
          cases hfront
  | cons c cs ih =>
      have hfront := readQuotedChar_flatMap c cs
      rw [h] at hfront
      cases ds with
      | nil => cases hfront
      | cons d ds =>
          rw [readQuotedChar_flatMap d ds, Option.some.injEq, Prod.mk.injEq] at hfront
          obtain ⟨rfl, hrest⟩ := hfront
          rw [ih hrest.symm]

/-- **Different texts have different quoted forms.** -/
theorem quotedChars_injective : Function.Injective quotedChars := by
  intro cs ds h
  exact eq_of_flatMap_quotedChar_eq (List.append_cancel_right (List.cons.inj h).2)

/-- **A quoted text is on one line.** -/
theorem lineFeed_not_mem_quotedChars (cs : List Char) : '\n' ∉ quotedChars cs := by
  simp [quotedChars, List.mem_flatMap, lineFeed_not_mem_quotedChar]

end Texts

end Text
end Templating
