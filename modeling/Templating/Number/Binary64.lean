/-!
# Finite doubles in exact arithmetic

A finite double is a sign and a natural number times a power of two. All
arithmetic here is on natural numbers: a ratio is rounded once, to the nearest
double, and a tie goes to the even mantissa.

Main definitions:

* `Binary64` and the rounding `Binary64.ofRatio`;
* `Binary64.mul` and `Binary64.div`, correctly rounded;
* `Binary64.ofDecimal`, the double nearest to a decimal number, and
  `Binary64.ofScaled`, which rounds the digits first and scales afterwards.

A result too large for a finite double is `none`.
-/

namespace Templating

section Binary64

/-- The number `mantissa * 2 ^ exponent` with a sign. The mantissa is below
`2 ^ 53`, and at least `2 ^ 52` unless the exponent is the least, `-1074`. -/
structure Binary64 where
  negative : Bool
  mantissa : Nat
  exponent : Int
deriving DecidableEq, Repr

namespace Binary64

/-- The zero of a sign. -/
def zero (negative : Bool) : Binary64 :=
  ⟨negative, 0, -1074⟩

/-- Whether the number is a zero of either sign. -/
def isZero (x : Binary64) : Bool :=
  x.mantissa == 0

/-- The quotient rounded to the nearest natural number, a tie to the even. -/
def roundDiv (num den : Nat) : Nat :=
  let q := num / den
  let r := num % den
  if den < 2 * r ∨ (den = 2 * r ∧ q % 2 = 1) then q + 1 else q

/-- The ratio divided by a power of two. -/
def divPow2 (num den : Nat) (e : Int) : Nat × Nat :=
  if 0 ≤ e then (num, den * Nat.pow 2 e.toNat)
  else (num * Nat.pow 2 (-e).toNat, den)

/-- The exponent that gives the nearest double of a positive ratio 53 bits, or
the least exponent. -/
def exponentOf (num den : Nat) : Int :=
  let k : Int := (Nat.log2 num : Int) - Nat.log2 den
  let (n, d) := divPow2 num den k
  max (if n < d then k - 53 else k - 52) (-1074)

/-- The double nearest to a ratio. -/
def ofRatio (negative : Bool) (num den : Nat) : Option Binary64 :=
  if num = 0 then
    some (zero negative)
  else
    let e := exponentOf num den
    let (n, d) := divPow2 num den e
    let m := roundDiv n d
    let (m, e) := if m = Nat.pow 2 53 then (Nat.pow 2 52, e + 1) else (m, e)
    if 971 < e then none else some ⟨negative, m, e⟩

/-- The product, correctly rounded. -/
def mul (x y : Binary64) : Option Binary64 :=
  let (n, d) := divPow2 (x.mantissa * y.mantissa) 1 (-(x.exponent + y.exponent))
  ofRatio (x.negative != y.negative) n d

/-- The quotient by a number other than zero, correctly rounded. -/
def div (x y : Binary64) : Option Binary64 :=
  let (n, d) := divPow2 x.mantissa y.mantissa (y.exponent - x.exponent)
  ofRatio (x.negative != y.negative) n d

/-- The double nearest to `digits * 10 ^ exponent`. Exponents that are certain
to overflow or to give zero are answered without forming the power. -/
def ofDecimal (negative : Bool) (digits : Nat) (exponent : Int) :
    Option Binary64 :=
  let size : Int := (Nat.toDigits 10 digits).length + exponent
  if digits = 0 ∨ size < -400 then
    some (zero negative)
  else if 400 < size then
    none
  else if 0 ≤ exponent then
    ofRatio negative (digits * Nat.pow 10 exponent.toNat) 1
  else
    ofRatio negative digits (Nat.pow 10 (-exponent).toNat)

/-- The power of ten as a double. -/
def powerOfTen (k : Nat) : Option Binary64 :=
  ofRatio false (Nat.pow 10 k) 1

/-- Scales by a power of ten, in steps that a double can hold. -/
def scaleTen : Nat → Binary64 → Int → Option Binary64
  | 0, x, _ => some x
  | steps + 1, x, exponent =>
      if 308 < exponent then
        if x.isZero then some x else none
      else if 0 ≤ exponent then
        (powerOfTen exponent.toNat).bind x.mul
      else if -308 ≤ exponent then
        (powerOfTen (-exponent).toNat).bind x.div
      else if x.isZero then
        some x
      else
        ((powerOfTen 308).bind x.div).bind fun y =>
          scaleTen steps y (exponent + 308)

/-- The digits rounded to a double, then scaled by a power of ten and rounded
again. Three steps take any double of 20 digits to zero. -/
def ofScaled (negative : Bool) (digits : Nat) (exponent : Int) :
    Option Binary64 :=
  (ofRatio negative digits 1).bind fun x => scaleTen 4 x exponent

end Binary64

end Binary64

end Templating
