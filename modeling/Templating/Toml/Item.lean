import Templating.Number.Binary64
import Templating.Keyed
import Templating.Text.Digits
import Templating.Text.Split
import Templating.Toml.Datetime

/-!
# TOML values

A value is a string, an integer, a float, a boolean, a datetime, an array or a
table. Everything but strings, arrays and tables is written as one word.

Main definitions: `Item`, and `Item.ofWord?`, the value that a word stands for.
-/

namespace Templating
namespace Toml

section Item

/-- A TOML value. -/
inductive Item where
  | string (value : String)
  | integer (value : Int)
  | float (value : Binary64)
  /-- An infinity, or what is not a number. -/
  | nonFinite
  /-- A number that can be written but has no value: a float too large for a
  double, or an integer in which there are no digits, or more than digits. -/
  | noValue
  | bool (value : Bool)
  | datetime (value : Datetime)
  | array (items : List Item)
  | table (fields : List (String × Item))

/-- A table: names and values, in the order of the names. -/
abbrev Table := List (String × Item)

end Item

section Words

/-- The characters of a number without the underscores between them. There must
be a digit on both sides of each; `isOpen` says that one may come first, as it
may behind a sign. -/
def ungroup? (isDigit : Char → Bool) : Bool → List Char → Option (List Char)
  | _, [] => some []
  | _, ['_'] => none
  | isOpen, '_' :: c :: rest =>
      if isOpen && isDigit c then (ungroup? isDigit true rest).map (c :: ·)
      else none
  | _, c :: rest => (ungroup? isDigit (isDigit c) rest).map (c :: ·)

/-- The sign in front of a number, if it has one, and the rest. -/
def splitSign : List Char → Option Char × List Char
  | '+' :: rest => (some '+', rest)
  | '-' :: rest => (some '-', rest)
  | rest => (none, rest)

/-- A number with a sign. -/
def withSign (sign : Option Char) (n : Int) : Int :=
  if sign = some '-' then -n else n

/-- Whether a zero stands in front of more digits. -/
def hasLeadingZero : List Char → Bool
  | '0' :: c :: _ => c.isDigit || c = '_'
  | _ => false

/-- A whole number in a base that is written in front of it, which may lack its
digits and then has no value. -/
def basedInteger? (base : Nat) (isDigit : Char → Bool) (cs : List Char) :
    Option Item :=
  match ungroup? isDigit false cs with
  | some [] => some .noValue
  | some ds => if ds.all isDigit then some (.integer (Text.ofDigits base ds)) else none
  | none => none

/-- Whether a character makes a number a float. -/
def isFloatMark (c : Char) : Bool :=
  c = '.' || c = 'e' || c = 'E'

/-- A whole number in base ten. An underscore behind its first digits is enough
to make a word one: of the rest only what stands beside underscores is looked at,
and this can be any hexadecimal digit. If there is more than digits in it, it has
no value. -/
def decimalInteger? (cs : List Char) : Option Item :=
  let (sign, rest) := splitSign cs
  let more := rest.dropWhile Char.isDigit
  if rest.isEmpty || hasLeadingZero rest then none
  else if more.isEmpty || (more.head? = some '_' && !more.any isFloatMark) then
    (ungroup? Text.isHexDigit sign.isSome rest).map fun ds =>
      if ds.all Char.isDigit then .integer (withSign sign (Text.ofDigits 10 ds))
      else .noValue
  else none

/-- A whole number. One in another base than ten has no sign. -/
def integer? (cs : List Char) : Option Item :=
  match cs with
  | '0' :: 'x' :: rest => basedInteger? 16 Text.isHexDigit rest
  | '0' :: 'o' :: rest => basedInteger? 8 (fun c => '0' ≤ c && c ≤ '7') rest
  | '0' :: 'b' :: rest => basedInteger? 2 (fun c => c = '0' || c = '1') rest
  | cs => decimalInteger? cs

/-- One or more digits. -/
def digits? (cs : List Char) : Option (List Char) :=
  if !cs.isEmpty && cs.all Char.isDigit then some cs else none

/-- An exponent: a sign and digits, which may have zeros in front. -/
def exponent? (cs : List Char) : Option Int :=
  let (sign, rest) := splitSign cs
  (digits? rest).map fun ds => withSign sign (Text.ofDigits 10 ds)

/-- The parts of a number with a point, an exponent or both: the digits before
the point, those after it, and the exponent. -/
def decimalParts? (cs : List Char) :
    Option (List Char × List Char × Int) :=
  let isMark := fun c => c = 'e' || c = 'E'
  let mantissa := cs.takeWhile fun c => !isMark c
  match Text.splitAt '.' mantissa, cs.dropWhile fun c => !isMark c with
  | [whole, fraction], [] => do
      let whole ← digits? whole
      let fraction ← digits? fraction
      some (whole, fraction, 0)
  | [whole], _ :: exponent => do
      let whole ← digits? whole
      let exponent ← exponent? exponent
      some (whole, [], exponent)
  | [whole, fraction], _ :: exponent => do
      let whole ← digits? whole
      let fraction ← digits? fraction
      let exponent ← exponent? exponent
      some (whole, fraction, exponent)
  | _, _ => none

/-- A number with a point or an exponent, or one that is not finite. -/
def float? (cs : List Char) : Option Item :=
  let (sign, rest) := splitSign cs
  if rest = ['i', 'n', 'f'] ∨ rest = ['n', 'a', 'n'] then
    some .nonFinite
  else if hasLeadingZero rest then
    none
  else do
    let ds ← ungroup? Char.isDigit sign.isSome rest
    let (whole, fraction, exponent) ← decimalParts? ds
    match Binary64.ofDecimal (sign = some '-') (Text.ofDigits 10 (whole ++ fraction))
        (exponent - fraction.length) with
    | some x => some (.float x)
    | none => some .noValue

/-- The value that a word stands for. -/
def Item.ofWord? (cs : List Char) : Option Item :=
  if cs = ['t', 'r', 'u', 'e'] then some (.bool true)
  else if cs = ['f', 'a', 'l', 's', 'e'] then some (.bool false)
  else
    match integer? cs with
    | some item => some item
    | none =>
        match float? cs with
        | some item => some item
        | none => (Datetime.ofText? cs).map .datetime

end Words

end Toml
end Templating
