/-!
# Tokens

A template is a sequence of tokens: runs of text, and tags written between an
opening and a closing mark. A tag carries what stands between its marks.

Main definitions:

* `Kind`, with the marks that enclose a tag of that kind;
* `Token` and `Token.display`, the token written back as template source.
-/

namespace Templating

section Kind

/-- The four kinds of token. -/
inductive Kind where
  /-- Literal text, copied to the output. -/
  | text
  /-- A value to be put in place. -/
  | placeholder
  /-- A directive; its first word names the tag. -/
  | block
  /-- A note that produces nothing. -/
  | comment
deriving DecidableEq, Repr

namespace Kind

/-- The second character of an opening mark decides the kind of the tag. -/
def ofMark : Char → Option Kind
  | '{' => some .placeholder
  | '%' => some .block
  | '#' => some .comment
  | _ => none

/-- The marks around a tag; text stands alone. -/
def marks : Kind → Option (List Char × List Char)
  | .text => none
  | .placeholder => some (['{', '{'], ['}', '}'])
  | .block => some (['{', '%'], ['%', '}'])
  | .comment => some (['{', '#'], ['#', '}'])

/-- The first character of the closing mark; the second is always a brace. -/
def closingMark : Kind → Char
  | .text => '}'
  | .placeholder => '}'
  | .block => '%'
  | .comment => '#'

/-- The name of a kind in listings and in JSON. -/
def name : Kind → String
  | .text => "text"
  | .placeholder => "variable"
  | .block => "block"
  | .comment => "comment"

/-- The kind with a given name. -/
def ofName? : String → Option Kind
  | "text" => some .text
  | "variable" => some .placeholder
  | "block" => some .block
  | "comment" => some .comment
  | _ => none

theorem ofName?_name (k : Kind) : ofName? k.name = some k := by
  cases k <;> rfl

end Kind

end Kind

section Token

/-- A token: its kind and what it carries, without the marks. -/
structure Token where
  kind : Kind
  payload : String
deriving DecidableEq, Repr

namespace Token

/-- A run of literal text. -/
def text (s : String) : Token := ⟨.text, s⟩

/-- A directive. -/
def block (s : String) : Token := ⟨.block, s⟩

/-- The token as template source: a tag has one space inside each mark. -/
def displayChars (t : Token) : List Char :=
  match t.kind.marks with
  | none => t.payload.toList
  | some (opening, closing) =>
      opening ++ ' ' :: t.payload.toList ++ ' ' :: closing

/-- The token as template source. -/
def display (t : Token) : String :=
  String.ofList t.displayChars

/-- The source of a whole sequence of tokens. -/
def displayAll (ts : List Token) : String :=
  String.ofList (ts.flatMap displayChars)

/-- Whether the token is a directive. -/
def isBlock (t : Token) : Bool :=
  t.kind == .block

end Token

end Token

end Templating
