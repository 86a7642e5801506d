/-!
# Aligned text

A text in a field of a fixed width: cut to a greatest length, then filled with
spaces.

Main definitions: `Alignment` and `aligned`.
-/

namespace Templating
namespace Text

section Aligned

/-- Where the text stands in its field. -/
inductive Alignment where
  | left
  | center
  | right
deriving DecidableEq, Repr

/-- How many of the missing characters go in front. In the centre, an odd one
goes behind. -/
def Alignment.before (missing : Nat) : Alignment → Nat
  | .left => 0
  | .center => missing / 2
  | .right => missing

/-- A text in a field of a width; a longer one keeps its length. With a limit,
the text is cut to it first. -/
def aligned
    (alignment : Alignment) (width : Nat) (limit : Option Nat)
    (cs : List Char) : List Char :=
  let cs :=
    match limit with
    | some n => cs.take n
    | none => cs
  let missing := width - cs.length
  let before := alignment.before missing
  List.replicate before ' ' ++ cs ++ List.replicate (missing - before) ' '

end Aligned

end Text
end Templating
