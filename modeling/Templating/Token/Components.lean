import Templating.Token
import Templating.Text.Blank

/-!
# The words of a directive

A directive is split into components at blanks. A blank inside quotes does not
split: a run opened by `"` or `'` lasts to the next quote of the same kind, or
to the end, and the quotes stay in the component.

Main definitions:

* `takeComponent`, the first component of a text that starts with one;
* `splitComponents`, all of them;
* `Token.components`, `Token.tagName?` and `Token.arguments`.
-/

namespace Templating
namespace Token

open Text

section Split

/-- The component at the front and what follows it; `quote` is the quote that
is open. -/
def takeComponent : Option Char → List Char → List Char × List Char
  | _, [] => ([], [])
  | some q, c :: cs =>
      (takeComponent (if c = q then none else some q) cs).map (c :: ·) id
  | none, c :: cs =>
      if c = '"' ∨ c = '\'' then
        (takeComponent (some c) cs).map (c :: ·) id
      else if isBlank c then
        ([], c :: cs)
      else
        (takeComponent none cs).map (c :: ·) id

/-- Nothing is lost: the component and what follows make up the text. -/
theorem takeComponent_append (quote : Option Char) (cs : List Char) :
    (takeComponent quote cs).1 ++ (takeComponent quote cs).2 = cs := by
  fun_induction takeComponent quote cs <;> simp_all

theorem length_takeComponent_le (quote : Option Char) (cs : List Char) :
    (takeComponent quote cs).2.length ≤ cs.length := by
  have h := congrArg List.length (takeComponent_append quote cs)
  simp only [List.length_append] at h
  omega

/-- A text that does not start with a blank starts with a component. -/
theorem length_takeComponent_lt
    (c : Char) (cs : List Char) (h : isBlank c = false) :
    (takeComponent none (c :: cs)).2.length < (c :: cs).length := by
  have hq := length_takeComponent_le (some c) cs
  have hn := length_takeComponent_le none cs
  unfold takeComponent
  split
  · simp only [Prod.map_snd, id_eq, List.length_cons]; omega
  · simp only [h, Bool.false_eq_true, if_false, Prod.map_snd, id_eq,
      List.length_cons]
    omega

theorem isBlank_head_dropWhile {cs rest : List Char} {c : Char}
    (h : cs.dropWhile isBlank = c :: rest) : isBlank c = false := by
  induction cs with
  | nil => simp at h
  | cons a as ih =>
      rw [List.dropWhile_cons] at h
      split at h
      · exact ih h
      · next ha => cases h; simpa using ha

theorem length_dropWhile_isBlank_le (cs : List Char) :
    (cs.dropWhile isBlank).length ≤ cs.length :=
  (List.dropWhile_suffix isBlank).length_le

/-- What follows the first component is shorter than the text. -/
theorem length_rest_lt {cs rest : List Char} {c : Char}
    (h : cs.dropWhile isBlank = c :: rest) :
    (takeComponent none (c :: rest)).2.length < cs.length := by
  have h1 := length_takeComponent_lt c rest (isBlank_head_dropWhile h)
  have h2 := length_dropWhile_isBlank_le cs
  rw [h] at h2
  omega

/-- The components of a text, in order. -/
def splitComponents (cs : List Char) : List (List Char) :=
  match h : cs.dropWhile isBlank with
  | [] => []
  | c :: rest =>
      have := length_rest_lt h
      (takeComponent none (c :: rest)).1 ::
        splitComponents (takeComponent none (c :: rest)).2
termination_by cs.length

end Split

section Directive

/-- The components of the payload. -/
def components (t : Token) : List String :=
  (splitComponents t.payload.toList).map String.ofList

/-- A directive is named by its first component. -/
def tagName? (t : Token) : Option String :=
  if t.kind = .block then t.components.head? else none

@[simp] theorem tagName?_text (s : String) : (text s).tagName? = none := rfl

/-- What follows the name of a directive. -/
def arguments (t : Token) : List String :=
  t.components.tail

end Directive

end Token
end Templating
