import Templating.Number.Shortest

/-!
# Numbers of a template value

A number is an integer or a double. Integers keep their digits; a double is
written as the shortest decimal that reads back.

Main definitions: `Number`, `Number.text` and `Number.isZero`.
-/

namespace Templating

section Number

/-- An integer, or a double. -/
inductive Number where
  | integer (value : Int)
  | double (value : Binary64)
deriving DecidableEq, Repr

namespace Number

/-- Whether the number is zero; both zeros of a double are. -/
def isZero : Number → Bool
  | .integer n => n == 0
  | .double x => x.isZero

/-- A run of the digit zero. -/
def zeros (n : Nat) : List Char :=
  List.replicate n '0'

/-- A positive decimal, given by its digits and the exponent of the first one.
From `1e-5` up to below `1e16` it is written in positional form and with a
point; elsewhere with an exponent that has a sign. -/
def decimalText (digits : List Char) (exponent : Int) : List Char :=
  let count : Int := digits.length
  if -5 ≤ exponent ∧ exponent < 0 then
    '0' :: '.' :: zeros (-exponent - 1).toNat ++ digits
  else if 0 ≤ exponent ∧ exponent ≤ 15 then
    if count ≤ exponent + 1 then
      digits ++ zeros (exponent + 1 - count).toNat ++ ['.', '0']
    else
      digits.take (exponent + 1).toNat ++
        '.' :: digits.drop (exponent + 1).toNat
  else
    let sign := if exponent < 0 then '-' else '+'
    let fraction := if digits.length ≤ 1 then [] else '.' :: digits.drop 1
    digits.take 1 ++ fraction ++
      'e' :: sign :: Nat.toDigits 10 exponent.natAbs

/-- A double written as a decimal. -/
def doubleText (x : Binary64) : List Char :=
  let sign := if x.negative then ['-'] else []
  if x.isZero then
    sign ++ ['0', '.', '0']
  else
    let (m, k) := x.shortest
    let digits := Nat.toDigits 10 m
    sign ++ decimalText digits (digits.length - 1 + k)

/-- An integer written in decimal. -/
def integerText (n : Int) : List Char :=
  if n < 0 then '-' :: Nat.toDigits 10 n.natAbs else Nat.toDigits 10 n.natAbs

/-- The number as output text. -/
def text : Number → List Char
  | .integer n => integerText n
  | .double x => doubleText x

end Number

end Number

end Templating
