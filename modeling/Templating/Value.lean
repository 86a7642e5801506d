import Templating.Keyed
import Templating.Number

/-!
# Template values

The values that a template works with: null, booleans, numbers, strings, arrays
and objects. The fields of an object are kept in the order of their names.

Main definitions:

* `Value` and `Scope`, the fields of an object taken as variable bindings;
* `Value.isTruthy`, the test of a condition;
* `Value.child?` and `Value.count?`, one step of a dotted expression;
* `Value.parts`, a value together with everything inside it.
-/

namespace Templating

section Value

/-- A template value. -/
inductive Value where
  | null
  | bool (value : Bool)
  | number (value : Number)
  | string (value : String)
  | array (items : List Value)
  | object (fields : List (String × Value))
deriving Repr, Inhabited

/-- Variables and their values, in the order of the names. -/
abbrev Scope := List (String × Value)

namespace Value

/-- A count as a value. -/
def ofNat (n : Nat) : Value :=
  .number (.integer n)

/-- An object from fields in any order; of two with one name the last counts. -/
def ofFields (fields : List (String × Value)) : Value :=
  .object (Keyed.ofList fields)

/-- The word for the type of a value. -/
def typeName : Value → String
  | .null => "null"
  | .bool _ => "bool"
  | .number _ => "number"
  | .string _ => "string"
  | .array _ => "array"
  | .object _ => "object"

/-- Null, false, zero and whatever is empty do not hold; all else does. -/
def isTruthy : Value → Bool
  | .null => false
  | .bool b => b
  | .number n => !n.isZero
  | .string s => s != ""
  | .array items => !items.isEmpty
  | .object fields => !fields.isEmpty

end Value

end Value

section Steps

/-- A list position in decimal digits; one plus sign may stand in front. A number
that is not below the limit is no position. -/
def position? (limit : Nat) (segment : String) : Option Nat :=
  let digits :=
    match segment.toList with
    | '+' :: rest => rest
    | cs => cs
  if digits.isEmpty then none
  else if digits.all Char.isDigit then
    if Nat.ofDigitChars 10 digits 0 < limit then
      some (Nat.ofDigitChars 10 digits 0)
    else
      none
  else none

/-- The limit of the positions in an array. They are numbers of 64 bits, and an
array in memory has no more items than there are such numbers; a longer list has
all its positions. -/
def positionLimit (items : List Value) : Nat :=
  max (Nat.pow 2 64) items.length

namespace Value

/-- The field of an object, or the item of an array: by position, or the first
or the last one. -/
def child? (segment : String) : Value → Option Value
  | .object fields => Keyed.find? segment fields
  | .array items =>
      if segment = "first" then items.head?
      else if segment = "last" then items.getLast?
      else (position? (positionLimit items) segment).bind fun i => items[i]?
  | _ => none

/-- The number of items, fields or characters. -/
def count? : Value → Option Value
  | .array items => some (ofNat items.length)
  | .object fields => some (ofNat fields.length)
  | .string s => some (ofNat s.length)
  | _ => none

end Value

end Steps

section Parts

namespace Value

mutual

/-- The value and all values inside it. -/
def parts : Value → List Value
  | .null => [.null]
  | .bool b => [.bool b]
  | .number n => [.number n]
  | .string s => [.string s]
  | .array items => .array items :: itemParts items
  | .object fields => .object fields :: fieldParts fields

/-- The parts of all items. -/
def itemParts : List Value → List Value
  | [] => []
  | v :: rest => v.parts ++ itemParts rest

/-- The parts of all fields. -/
def fieldParts : List (String × Value) → List Value
  | [] => []
  | (_, v) :: rest => v.parts ++ fieldParts rest

end

end Value

end Parts

end Templating
