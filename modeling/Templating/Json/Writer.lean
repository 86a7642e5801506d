import Templating.Value

/-!
# Writing JSON

A value is written as JSON in two layouts: compact, without blanks, and pretty,
with one item a line and two spaces for each level. Fields are written in the
order in which the object holds them.

Main definitions: `Json.quote`, `Json.compact`, `Json.pretty`, and
`Value.outputText`, the text of a value in the output of a template.
-/

namespace Templating
namespace Json

section Strings

/-- A hexadecimal digit in lower case. -/
def hexDigit (n : Nat) : Char :=
  if n < 10 then Char.ofNat (n + 48) else Char.ofNat (n + 87)

/-- Four hexadecimal digits. -/
def hex4 (n : Nat) : List Char :=
  [hexDigit (n / 4096 % 16), hexDigit (n / 256 % 16), hexDigit (n / 16 % 16),
    hexDigit (n % 16)]

/-- A character inside a string: quotes, backslashes and control characters
are escaped, all else stands for itself. -/
def escapeChar (c : Char) : List Char :=
  if c = '"' then ['\\', '"']
  else if c = '\\' then ['\\', '\\']
  else if c = '\n' then ['\\', 'n']
  else if c = '\t' then ['\\', 't']
  else if c = '\r' then ['\\', 'r']
  else if c = '\x08' then ['\\', 'b']
  else if c = '\x0c' then ['\\', 'f']
  else if c.toNat < 0x20 then '\\' :: 'u' :: hex4 c.toNat
  else [c]

/-- A string in quotes. -/
def quote (cs : List Char) : List Char :=
  '"' :: cs.flatMap escapeChar ++ ['"']

end Strings

section Compact

mutual

/-- A value without blanks. -/
def compact : Value → List Char
  | .null => ['n', 'u', 'l', 'l']
  | .bool true => ['t', 'r', 'u', 'e']
  | .bool false => ['f', 'a', 'l', 's', 'e']
  | .number n => n.text
  | .string s => quote s.toList
  | .array items => '[' :: compactItems items ++ [']']
  | .object fields => '{' :: compactFields fields ++ ['}']

/-- Items with commas between them. -/
def compactItems : List Value → List Char
  | [] => []
  | [v] => compact v
  | v :: rest => compact v ++ ',' :: compactItems rest

/-- Fields with commas between them. -/
def compactFields : List (String × Value) → List Char
  | [] => []
  | [(k, v)] => quote k.toList ++ ':' :: compact v
  | (k, v) :: rest =>
      quote k.toList ++ ':' :: compact v ++ ',' :: compactFields rest

end

end Compact

section Pretty

/-- A new line at a level. -/
def newline (level : Nat) : List Char :=
  '\n' :: List.replicate (2 * level) ' '

mutual

/-- A value at a level, one item a line; what is empty stays on its line. -/
def pretty (level : Nat) : Value → List Char
  | .array [] => ['[', ']']
  | .array (v :: rest) =>
      '[' :: prettyItems (level + 1) (v :: rest) ++ newline level ++ [']']
  | .object [] => ['{', '}']
  | .object (f :: rest) =>
      '{' :: prettyFields (level + 1) (f :: rest) ++ newline level ++ ['}']
  | .null => compact .null
  | .bool b => compact (.bool b)
  | .number n => compact (.number n)
  | .string s => compact (.string s)

/-- Items on lines of their own. -/
def prettyItems (level : Nat) : List Value → List Char
  | [] => []
  | [v] => newline level ++ pretty level v
  | v :: rest => newline level ++ pretty level v ++ ',' :: prettyItems level rest

/-- Fields on lines of their own. -/
def prettyFields (level : Nat) : List (String × Value) → List Char
  | [] => []
  | [(k, v)] => newline level ++ quote k.toList ++ ':' :: ' ' :: pretty level v
  | (k, v) :: rest =>
      newline level ++ quote k.toList ++ ':' :: ' ' :: pretty level v ++
        ',' :: prettyFields level rest

end

end Pretty

section Text

/-- A value as one line of JSON. -/
def compactText (v : Value) : String :=
  String.ofList (compact v)

/-- A value as indented JSON. -/
def prettyText (v : Value) : String :=
  String.ofList (pretty 0 v)

end Text

end Json

/-- The text of a value in the output: nothing for null, a string as it is, and
JSON for all else. -/
def Value.outputText : Value → String
  | .null => ""
  | .string s => s
  | v => Json.compactText v

end Templating
