import Templating.Json.Writer
import Templating.Token

/-!
# Tokens as JSON

A token is an object with its kind and its payload. When it is read, other
fields are ignored, and for the name of a kind an object that holds null under
that name will do; a pair of a kind's name and a payload is read as well.

Main definitions: `Token.toValue` and `Token.ofValue?`, and the same for `Kind`.
-/

namespace Templating

section Kind

namespace Kind

/-- The kind as JSON: its name. -/
def toValue (k : Kind) : Value :=
  .string k.name

/-- The kind that a value stands for. -/
def ofValue? : Value → Option Kind
  | .string name => ofName? name
  | .object [(name, .null)] => ofName? name
  | _ => none

theorem ofValue?_toValue (k : Kind) : ofValue? k.toValue = some k :=
  ofName?_name k

end Kind

end Kind

section Token

namespace Token

/-- The token as JSON. -/
def toValue (t : Token) : Value :=
  .object [("kind", t.kind.toValue), ("value", .string t.payload)]

/-- The token that a value stands for. -/
def ofValue? : Value → Option Token
  | .object fields =>
      match Keyed.find? "kind" fields, Keyed.find? "value" fields with
      | some kind, some (.string payload) =>
          (Kind.ofValue? kind).map fun k => ⟨k, payload⟩
      | _, _ => none
  | .array [.string name, .string payload] =>
      (Kind.ofName? name).map fun k => ⟨k, payload⟩
  | _ => none

theorem ofValue?_toValue (t : Token) : ofValue? t.toValue = some t := by
  simp [ofValue?, toValue, Keyed.find?, Kind.ofValue?_toValue]

end Token

end Token

end Templating
