import Templating.Toml.Reader
import Templating.Value

/-!
# TOML as template values

A TOML value becomes a template value. Integers must fit into 64 bits, signed or
not; a float that is not finite becomes null; a datetime becomes an object with
its text.

Main definitions: `Item.toValue?` and `Item.isSkippable`.
-/

namespace Templating
namespace Toml

section Values

/-- The name under which the text of a datetime stands. -/
def datetimeField : String :=
  "$__toml_private_datetime"

mutual

/-- The template value of a TOML value, if it has one. -/
def Item.toValue? : Item → Option Value
  | .string s => some (.string s)
  | .integer n =>
      if -(2 ^ 63) ≤ n ∧ n < 2 ^ 64 then some (.number (.integer n)) else none
  | .float x => some (.number (.double x))
  | .nonFinite => some .null
  | .noValue => none
  | .bool b => some (.bool b)
  | .datetime d =>
      some (.object [(datetimeField, .string (String.ofList d.text))])
  | .array items => (itemsToValues? items).map .array
  | .table fields => (fieldsToScope? fields).map .object

/-- The template values of all items. -/
def itemsToValues? : List Item → Option (List Value)
  | [] => some []
  | item :: rest =>
      match item.toValue?, itemsToValues? rest with
      | some v, some vs => some (v :: vs)
      | _, _ => none

/-- The template values of all fields. -/
def fieldsToScope? : List (String × Item) → Option Scope
  | [] => some []
  | (name, item) :: rest =>
      match item.toValue?, fieldsToScope? rest with
      | some v, some fields => some ((name, v) :: fields)
      | _, _ => none

end

mutual

/-- Whether a value can be skipped where it is not needed: its numbers have a
value, and an integer has at most 128 bits. -/
def Item.isSkippable : Item → Bool
  | .integer n => -(2 ^ 127) ≤ n ∧ n < 2 ^ 128
  | .noValue => false
  | .array items => areSkippable items
  | .table fields => fieldsSkippable fields
  | .string _ => true
  | .float _ => true
  | .nonFinite => true
  | .bool _ => true
  | .datetime _ => true

/-- Whether all items can be skipped. -/
def areSkippable : List Item → Bool
  | [] => true
  | item :: rest => item.isSkippable && areSkippable rest

/-- Whether all fields can be skipped. -/
def fieldsSkippable : List (String × Item) → Bool
  | [] => true
  | (_, item) :: rest => item.isSkippable && fieldsSkippable rest

end

/-- The object of a TOML document. -/
def readValue? (text : String) : Option Value :=
  (read? text).bind fun table => (fieldsToScope? table).map .object

end Values

end Toml
end Templating
