import Templating.Number.Binary64

/-!
# The shortest decimal of a double

Among the decimals that read back as a given double, the one with the fewest
digits, and of those the nearest to the double.

For each number of digits the two neighbours of the double on that decimal
grid are tried: if any decimal of the grid reads back, one of them does.

Main definition: `shortest`, the digits and the power of ten.
-/

namespace Templating
namespace Binary64

section Shortest

/-- The range of decimals that read back as one double, in quarters of its last
place: `low` to `high` around `value`, the ends included or not. -/
structure ReadBack where
  low : Nat
  value : Nat
  high : Nat
  closed : Bool

/-- Half a last place on each side; a quarter below a power of two, where the
doubles lie twice as close. The ends read back to an even mantissa. -/
def readBack (x : Binary64) : ReadBack :=
  let m := x.mantissa
  { low := if m = Nat.pow 2 52 ∧ -1074 < x.exponent then 4 * m - 1
      else 4 * m - 2
    value := 4 * m
    high := 4 * m + 2
    closed := m % 2 = 0 }

/-- One grid point, `d * a` against the range scaled by `b`. -/
def ReadBack.holds (r : ReadBack) (a b d : Nat) : Bool :=
  if r.closed then
    r.low * b ≤ d * a && d * a ≤ r.high * b
  else
    r.low * b < d * a && d * a < r.high * b

/-- The neighbour on the grid that reads back; of two, the nearer, and the even
one of two equally near. -/
def ReadBack.neighbour? (r : ReadBack) (a b : Nat) : Option Nat :=
  let v := r.value * b
  let d := v / a
  match r.holds a b d, r.holds a b (d + 1) with
  | true, true =>
      let below := v - d * a
      let above := (d + 1) * a - v
      if below < above ∨ (below = above ∧ d % 2 = 0) then some d
      else some (d + 1)
  | true, false => some d
  | false, true => some (d + 1)
  | false, false => none

/-- A power of ten as a ratio. -/
def tenTo (k : Int) : Nat × Nat :=
  if 0 ≤ k then (Nat.pow 10 k.toNat, 1) else (1, Nat.pow 10 (-k).toNat)

/-- The decimal exponent of a positive double's first digit. -/
def decimalExponent (x : Binary64) : Int :=
  let guess := ((Nat.log2 x.mantissa : Int) + x.exponent) * 30103 / 100000
  let (n, d) := divPow2 x.mantissa 1 (-x.exponent)
  let atLeast (k : Int) : Bool :=
    let (p, q) := tenTo k
    p * d ≤ n * q
  if atLeast (guess + 1) then guess + 1
  else if atLeast guess then guess
  else guess - 1

/-- Moves the zeros at the end of the digits into the exponent. -/
def stripZeros : Nat → Nat → Int → Nat × Int
  | 0, digits, k => (digits, k)
  | fuel + 1, digits, k =>
      if digits % 10 = 0 then stripZeros fuel (digits / 10) (k + 1)
      else (digits, k)

/-- The grid point with `count` digits that reads back, if one does. -/
def withDigits? (x : Binary64) (count : Nat) : Option (Nat × Int) :=
  let k := x.decimalExponent + 1 - count
  let (p, q) := tenTo k
  let (n, d) := divPow2 1 1 (-(x.exponent - 2))
  ((readBack x).neighbour? (p * d) (n * q)).map fun digits =>
    stripZeros 20 digits k

/-- The digits `m` and the exponent `k` of the shortest decimal `m * 10 ^ k`
that reads back as the positive double. Seventeen digits always do. -/
def shortest (x : Binary64) : Nat × Int :=
  ((List.range 17).findSome? fun i => x.withDigits? (i + 1)).getD (0, 0)

end Shortest

end Binary64
end Templating
