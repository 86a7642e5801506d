/-!
# Blank characters

The characters that separate words and that are trimmed from the ends of a
text: those with the Unicode property White_Space.

Main definitions:

* `isBlank`, the property as a test;
* `trimBlank` on lists of characters and `trim` on strings.
-/

namespace Templating
namespace Text

section Blank

/-- The Unicode property White_Space. -/
def isBlank (c : Char) : Bool :=
  let n := c.toNat
  (0x09 ≤ n && n ≤ 0x0d) || n == 0x20 || n == 0x85 || n == 0xa0 ||
    n == 0x1680 || (0x2000 ≤ n && n ≤ 0x200a) || n == 0x2028 ||
    n == 0x2029 || n == 0x202f || n == 0x205f || n == 0x3000

theorem isBlank_of_isDigit {c : Char} (h : c.isDigit = true) : isBlank c = false := by
  obtain ⟨hlow, hhigh⟩ := Char.isDigit_iff_toNat.1 h
  change 48 ≤ c.toNat at hlow
  change c.toNat ≤ 57 at hhigh
  simp [isBlank]
  omega

/-- Drops the blanks at both ends. -/
def trimBlank (cs : List Char) : List Char :=
  ((cs.dropWhile isBlank).reverse.dropWhile isBlank).reverse

/-- Drops the blanks at both ends of a string. -/
def trim (s : String) : String :=
  String.ofList (trimBlank s.toList)

end Blank

section Trim

/-- Nothing is dropped in front of a character that is not blank. -/
theorem dropWhile_isBlank_eq_self {cs : List Char}
    (h : ∀ c ∈ cs.head?, isBlank c = false) : cs.dropWhile isBlank = cs := by
  cases cs with
  | nil => rfl
  | cons c cs =>
      have hc : isBlank c = false := h c rfl
      rw [List.dropWhile_cons, if_neg (by simp [hc])]

/-- Nothing is dropped from the front of what dropping has left. -/
theorem dropWhile_isBlank_of_isPrefix {cs ds : List Char}
    (h : cs <+: ds.dropWhile isBlank) : cs.dropWhile isBlank = cs := by
  refine dropWhile_isBlank_eq_self fun c hc => ?_
  obtain ⟨rest, rfl⟩ := List.head?_eq_some_iff.1 hc
  obtain ⟨more, hmore⟩ := h
  have hhead := List.head?_dropWhile_not isBlank ds
  rw [← hmore] at hhead
  simpa using hhead

/-- A text without blanks at its ends is trimmed. -/
theorem trimBlank_eq_self {cs : List Char}
    (hfront : ∀ c ∈ cs.head?, isBlank c = false)
    (hback : ∀ c ∈ cs.getLast?, isBlank c = false) : trimBlank cs = cs := by
  have hreverse : cs.reverse.dropWhile isBlank = cs.reverse :=
    dropWhile_isBlank_eq_self (by rwa [List.head?_reverse])
  rw [trimBlank, dropWhile_isBlank_eq_self hfront, hreverse, List.reverse_reverse]

/-- A string without blanks at its ends is trimmed. -/
theorem trim_eq_self {s : String}
    (hfront : ∀ c ∈ s.toList.head?, isBlank c = false)
    (hback : ∀ c ∈ s.toList.getLast?, isBlank c = false) : trim s = s := by
  rw [trim, trimBlank_eq_self hfront hback, String.ofList_toList]

theorem trimBlank_isPrefix (cs : List Char) :
    trimBlank cs <+: cs.dropWhile isBlank := by
  rw [← List.reverse_suffix, trimBlank, List.reverse_reverse]
  exact List.dropWhile_suffix isBlank

theorem trimBlank_isInfix (cs : List Char) : trimBlank cs <:+: cs :=
  (trimBlank_isPrefix cs).isInfix.trans (List.dropWhile_suffix isBlank).isInfix

theorem trimBlank_cons {c : Char} (h : isBlank c = true) (cs : List Char) :
    trimBlank (c :: cs) = trimBlank cs := by
  simp [trimBlank, h]

theorem trimBlank_concat {c : Char} (h : isBlank c = true) (cs : List Char) :
    trimBlank (cs ++ [c]) = trimBlank cs := by
  unfold trimBlank
  rw [List.dropWhile_append]
  split
  · next hnil =>
      rw [List.isEmpty_iff.1 hnil]
      simp [h]
  · simp [h]

/-- What trimming has left has no blanks at its ends. -/
@[simp] theorem trimBlank_trimBlank (cs : List Char) :
    trimBlank (trimBlank cs) = trimBlank cs := by
  have hfront : (trimBlank cs).dropWhile isBlank = trimBlank cs :=
    dropWhile_isBlank_of_isPrefix (trimBlank_isPrefix cs)
  have hreverse : (trimBlank cs).reverse <+:
      (cs.dropWhile isBlank).reverse.dropWhile isBlank := by
    simp [trimBlank]
  have hback : (trimBlank cs).reverse.dropWhile isBlank =
      (trimBlank cs).reverse :=
    dropWhile_isBlank_of_isPrefix hreverse
  conv => lhs; rw [trimBlank]
  rw [hfront, hback, List.reverse_reverse]

/-- What trimming has left does not start with a blank. -/
theorem isBlank_head_trimBlank (cs : List Char) :
    ∀ c ∈ (trimBlank cs).head?, isBlank c = false := by
  intro c hc
  have hfront : (trimBlank cs).dropWhile isBlank = trimBlank cs :=
    dropWhile_isBlank_of_isPrefix (trimBlank_isPrefix cs)
  have hhead := List.head?_dropWhile_not isBlank (trimBlank cs)
  rw [hfront, Option.mem_def.1 hc] at hhead
  simpa using hhead

end Trim

end Text
end Templating
