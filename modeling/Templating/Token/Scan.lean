import Templating.Token
import Templating.Text.Blank

/-!
# From source to tokens

The source is cut at its tags. A tag starts at an opening mark and ends at the
first closing mark of the same kind; an opening mark without a closing one is
text. The search runs from the left, so a mark inside a tag opens nothing.

Main definitions:

* `splitAtCloser`, the content of a tag whose opening mark has been read;
* `firstTag?`, the leftmost tag with the text before and after it;
* `scan` on characters and `tokenize` on strings.
-/

namespace Templating
namespace Token

open Text

section FirstTag

/-- Splits at the first closing mark that starts with `m`. -/
def splitAtCloser (m : Char) : List Char → Option (List Char × List Char)
  | c :: d :: rest =>
      if c = m ∧ d = '}' then
        some ([], rest)
      else
        (splitAtCloser m (d :: rest)).map (Prod.map (c :: ·) id)
  | _ => none

/-- The content, the closing mark and the rest make up the text. -/
theorem splitAtCloser_append {m : Char} {cs content rest : List Char}
    (h : splitAtCloser m cs = some (content, rest)) :
    content ++ m :: '}' :: rest = cs := by
  fun_induction splitAtCloser m cs generalizing content with
  | case1 c d tail hc =>
      obtain ⟨rfl, rfl⟩ := hc
      simp at h
      obtain ⟨rfl, rfl⟩ := h
      rfl
  | case2 c d tail _ ih =>
      simp only [Option.map_eq_some_iff, Prod.exists] at h
      obtain ⟨a, b, hab, rfl, rfl⟩ := h
      exact congrArg (c :: ·) (ih hab)
  | case3 => simp at h

/-- The tag whose opening mark has just been read, and what follows it. -/
def tagAfter? (mark : Char) (cs : List Char) : Option (Token × List Char) :=
  match Kind.ofMark mark with
  | none => none
  | some kind =>
      (splitAtCloser kind.closingMark cs).map fun r =>
        (⟨kind, String.ofList (trimBlank r.1)⟩, r.2)

/-- The leftmost tag, with the text before it and the source after it. -/
def firstTag? : List Char → Option (List Char × Token × List Char)
  | [] => none
  | [_] => none
  | c :: mark :: cs =>
      match if c = '{' then tagAfter? mark cs else none with
      | some (tag, rest) => some ([], tag, rest)
      | none =>
          (firstTag? (mark :: cs)).map (Prod.map (c :: ·) id)

theorem length_tagAfter?_lt {mark : Char} {cs rest : List Char} {tag : Token}
    (h : tagAfter? mark cs = some (tag, rest)) :
    rest.length < cs.length := by
  unfold tagAfter? at h
  split at h
  · simp at h
  · simp only [Option.map_eq_some_iff, Prod.mk.injEq, Prod.exists] at h
    obtain ⟨content, tail, hs, _, rfl⟩ := h
    have hl := congrArg List.length (splitAtCloser_append hs)
    simp only [List.length_append, List.length_cons] at hl
    omega

/-- What follows the leftmost tag is shorter than the source. -/
theorem length_firstTag?_lt {cs before rest : List Char} {tag : Token}
    (h : firstTag? cs = some (before, tag, rest)) :
    rest.length < cs.length := by
  fun_induction firstTag? cs generalizing before with
  | case1 => simp at h
  | case2 => simp at h
  | case3 c mark cs t r ht =>
      simp only [Option.some.injEq, Prod.mk.injEq] at h
      obtain ⟨-, -, rfl⟩ := h
      split at ht
      · have := length_tagAfter?_lt ht
        simp only [List.length_cons]
        omega
      · simp at ht
  | case4 c mark cs _ ih =>
      simp only [Option.map_eq_some_iff, Prod.exists] at h
      obtain ⟨b, t, r, hf, -, rfl, rfl⟩ := h
      have := ih hf
      simp only [List.length_cons] at this ⊢
      omega

end FirstTag

section Scan

/-- A run of text is a token unless it is empty. -/
def textRun : List Char → List Token
  | [] => []
  | cs => [text (String.ofList cs)]

/-- The tokens of a source. -/
def scan (cs : List Char) : List Token :=
  match h : firstTag? cs with
  | none => textRun cs
  | some (before, tag, rest) =>
      have := length_firstTag?_lt h
      textRun before ++ tag :: scan rest
termination_by cs.length

/-- The tokens of a source string. -/
def tokenize (source : String) : List Token :=
  scan source.toList

end Scan

end Token
end Templating
