import Templating.Text.Printable

/-!
# Quoted text

A text between double quotes on one line: what does not show as itself is
escaped, so that different texts have different quoted forms.

Main definition: `quoted`.
-/

namespace Templating
namespace Text

section Quoted

/-- A character inside quotes. Six have escapes of their own; other unprintable
ones are given by their code point. -/
def quotedChar (c : Char) : List Char :=
  match c with
  | '\x00' => ['\\', '0']
  | '\t' => ['\\', 't']
  | '\r' => ['\\', 'r']
  | '\n' => ['\\', 'n']
  | '"' => ['\\', '"']
  | '\\' => ['\\', '\\']
  | c =>
      if isPrintable c then [c]
      else ['\\', 'u', '{'] ++ Nat.toDigits 16 c.toNat ++ ['}']

/-- A text in double quotes. -/
def quotedChars (cs : List Char) : List Char :=
  '"' :: cs.flatMap quotedChar ++ ['"']

/-- A string in double quotes. -/
def quoted (s : String) : String :=
  String.ofList (quotedChars s.toList)

end Quoted

end Text
end Templating
