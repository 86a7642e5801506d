/-!
# Splitting at a character

A text is split at every occurrence of a separator; there is one piece more
than there are separators, and pieces may be empty.

Main statements: joining the pieces gives the text back (`joinWith_splitAt`), and at a
separator the pieces fall into those in front and those behind (`splitAt_append_sep`).
-/

namespace Templating
namespace Text

section Split

/-- The pieces between the separators. -/
def splitAt (sep : Char) : List Char → List (List Char)
  | [] => [[]]
  | c :: cs =>
      if c = sep then
        [] :: splitAt sep cs
      else
        match splitAt sep cs with
        | [] => [[c]]
        | piece :: pieces => (c :: piece) :: pieces

/-- The pieces with the separator between any two. -/
def joinWith (sep : Char) : List (List Char) → List Char
  | [] => []
  | [piece] => piece
  | piece :: pieces => piece ++ sep :: joinWith sep pieces

theorem splitAt_ne_nil (sep : Char) (cs : List Char) : splitAt sep cs ≠ [] := by
  cases cs with
  | nil => simp [splitAt]
  | cons c cs =>
      unfold splitAt
      split
      · simp
      · split <;> simp

theorem joinWith_splitAt (sep : Char) (cs : List Char) :
    joinWith sep (splitAt sep cs) = cs := by
  induction cs with
  | nil => rfl
  | cons c cs ih =>
      unfold splitAt
      split
      · next h =>
          subst h
          cases hs : splitAt c cs with
          | nil => exact absurd hs (splitAt_ne_nil c cs)
          | cons piece pieces =>
              rw [hs] at ih
              simp [joinWith, ih]
      · split
        · next hs => exact absurd hs (splitAt_ne_nil sep cs)
        · next piece pieces hs =>
            rw [hs] at ih
            cases pieces with
            | nil => simpa [joinWith] using ih
            | cons p ps => simpa [joinWith] using ih

theorem splitAt_append_sep (sep : Char) (xs ys : List Char) :
    splitAt sep (xs ++ sep :: ys) = splitAt sep xs ++ splitAt sep ys := by
  induction xs with
  | nil => simp [splitAt]
  | cons x xs ih =>
      by_cases hx : x = sep
      · simp [splitAt, hx, ih]
      · simp only [List.cons_append, splitAt, hx, if_false, ih]
        cases hxs : splitAt sep xs with
        | nil => exact absurd hxs (splitAt_ne_nil sep xs)
        | cons piece pieces => rfl

/-- A text without separators is one piece. -/
theorem splitAt_of_not_mem {sep : Char} {cs : List Char} (h : sep ∉ cs) :
    splitAt sep cs = [cs] := by
  induction cs with
  | nil => rfl
  | cons c cs ih =>
      obtain ⟨hc, hcs⟩ := not_or.1 (mt List.mem_cons.2 h)
      rw [splitAt, if_neg (Ne.symm hc), ih hcs]

/-- Pieces with the separator behind each are cut apart there, and nothing is left over. -/
theorem splitAt_ended {sep : Char} {pieces : List (List Char)}
    (h : ∀ piece ∈ pieces, sep ∉ piece) :
    splitAt sep (pieces.flatMap (· ++ [sep])) = pieces ++ [[]] := by
  induction pieces with
  | nil => rfl
  | cons piece pieces ih =>
      obtain ⟨hpiece, hpieces⟩ := List.forall_mem_cons.1 h
      rw [List.flatMap_cons, List.append_assoc, List.singleton_append, splitAt_append_sep,
        splitAt_of_not_mem hpiece, ih hpieces]
      rfl

/-- The pieces of a string. -/
def splitString (sep : Char) (s : String) : List String :=
  (splitAt sep s.toList).map String.ofList

end Split

end Text
end Templating
