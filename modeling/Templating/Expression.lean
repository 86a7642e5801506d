import Templating.Context
import Templating.Json.Writer
import Templating.Text.Blank
import Templating.Text.Split

/-!
# Expressions

An expression is a quoted literal or a dotted path. The first segment of a path
names a variable; each further one takes a field, an item by its position, or
the first or last item. As the last segment, `count` is the number of items,
fields or characters of what has neither a field nor an item of that name.

Main definitions: `Expression`, `Expression.literal?` and
`Expression.resolve?`.
-/

namespace Templating

open Text

section Expression

/-- The text of an expression, without blanks at its ends. -/
structure Expression where
  text : String
deriving DecidableEq, Repr

namespace Expression

/-- The expression written in a template. -/
def ofSource (source : String) : Expression :=
  ⟨trim source⟩

/-- The text between quotes of one kind, if the whole expression is quoted. -/
def quoted? : List Char → Option (List Char)
  | q :: rest =>
      if (q = '"' ∨ q = '\'') ∧ rest.getLast? = some q then
        some rest.dropLast
      else
        none
  | [] => none

/-- The value of a quoted expression. -/
def literal? (e : Expression) : Option String :=
  (quoted? e.text.toList).map String.ofList

/-- The segments between the dots. -/
def segments (e : Expression) : List String :=
  splitString '.' e.text

/-- Follows the segments of a path from a value. -/
def follow : Value → List String → Option Value
  | v, [] => some v
  | v, segment :: rest =>
      match v.child? segment with
      | some w => follow w rest
      | none =>
          if segment = "count" ∧ rest = [] then v.count? else none

/-- The value of the expression in a context, if it has one. -/
def resolve? (e : Expression) (c : Context) : Option Value :=
  match e.literal? with
  | some s => some (.string s)
  | none =>
      match e.segments with
      | [] => none
      | first :: rest => (c.get? first).bind fun v => follow v rest

/-- The text of the value in the output; nothing for an absent value. -/
def outputText (e : Expression) (c : Context) : String :=
  ((e.resolve? c).map Value.outputText).getD ""

theorem outputText_of_resolve? {e : Expression} {c : Context} {v : Value}
    (h : e.resolve? c = some v) : e.outputText c = v.outputText := by
  rw [outputText, h]
  rfl

end Expression

end Expression

end Templating
