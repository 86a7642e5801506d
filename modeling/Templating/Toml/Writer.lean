import Templating.Toml.Quoted

/-!
# Writing TOML strings

A string is written in the plainest way that can hold it: between double quotes
if nothing has to be escaped, else between single quotes, else over several
lines, and only then with escapes.

Main definitions: `Features`, what a string contains, `Style.choose` and
`writeString`.
-/

namespace Templating
namespace Toml

section Features

/-- What in a string bears on how it can be written. -/
structure Features where
  /-- Control characters other than tabs and line feeds. -/
  hasControl : Bool
  hasBackslash : Bool
  hasLineFeed : Bool
  /-- The length of the longest run of single quotes. -/
  singleQuotes : Nat
  /-- The length of the longest run of double quotes. -/
  doubleQuotes : Nat
deriving DecidableEq, Repr

/-- Whether a character can be written in no other way than as an escape. -/
def needsEscape (c : Char) : Bool :=
  (c < ' ' && c != '\t' && c != '\n') || c = '\x7f'

/-- The length of the longest run of a character; `run` is the length of the one
that is going on. -/
def longestRun (q : Char) (run : Nat) : List Char → Nat
  | [] => run
  | c :: rest =>
      if c = q then longestRun q (run + 1) rest
      else max run (longestRun q 0 rest)

/-- The features of a string. -/
def Features.ofChars (cs : List Char) : Features where
  hasControl := cs.any needsEscape
  hasBackslash := cs.contains '\\'
  hasLineFeed := cs.contains '\n'
  singleQuotes := longestRun '\'' 0 cs
  doubleQuotes := longestRun '"' 0 cs

end Features

section Style

/-- The ways to write a string. -/
inductive Style where
  | basic
  | literal
  | basicLines
  | literalLines
deriving DecidableEq, Repr

/-- The plainest style that can hold the string, with escapes only if no style
does without them. -/
def Style.choose (f : Features) : Style :=
  if !f.hasControl && !f.hasBackslash && f.doubleQuotes == 0 && !f.hasLineFeed then
    .basic
  else if !f.hasControl && f.singleQuotes == 0 && !f.hasLineFeed then
    .literal
  else if !f.hasControl && !f.hasBackslash && f.doubleQuotes ≤ 2 then
    .basicLines
  else if !f.hasControl && f.singleQuotes ≤ 2 then
    .literalLines
  else if f.hasLineFeed then
    .basicLines
  else
    .basic

end Style

section Writing

/-- Four hexadecimal digits in upper case. -/
def upperHex4 (n : Nat) : List Char :=
  let cs := (Nat.toDigits 16 n).map Char.toUpper
  List.replicate (4 - cs.length) '0' ++ cs

/-- A character between double quotes. -/
def basicChar (c : Char) : List Char :=
  match c with
  | '\x08' => ['\\', 'b']
  | '\t' => ['\\', 't']
  | '\n' => ['\\', 'n']
  | '\x0c' => ['\\', 'f']
  | '\r' => ['\\', 'r']
  | '"' => ['\\', '"']
  | '\\' => ['\\', '\\']
  | c => if needsEscape c then '\\' :: 'u' :: upperHex4 c.toNat else [c]

/-- Characters between three double quotes. Line feeds stand for themselves, and
so do up to two quotes in a row; `quotes` counts those before. -/
def basicLines (quotes : Nat) : List Char → List Char
  | [] => []
  | '\n' :: rest => '\n' :: basicLines 0 rest
  | '"' :: rest =>
      if quotes < 2 then '"' :: basicLines (quotes + 1) rest
      else '\\' :: '"' :: basicLines 0 rest
  | c :: rest => basicChar c ++ basicLines 0 rest

/-- The line feed after opening quotes. -/
def openingLineFeed (cs : List Char) : List Char :=
  if cs.contains '\n' then ['\n'] else []

/-- A string in a style. -/
def writeAs (style : Style) (cs : List Char) : List Char :=
  match style with
  | .basic => '"' :: cs.flatMap basicChar ++ ['"']
  | .literal => '\'' :: cs ++ ['\'']
  | .basicLines =>
      ['"', '"', '"'] ++ openingLineFeed cs ++ basicLines 0 cs ++ ['"', '"', '"']
  | .literalLines =>
      ['\'', '\'', '\''] ++ openingLineFeed cs ++ cs ++ ['\'', '\'', '\'']

/-- A string in the plainest style. -/
def writeString (cs : List Char) : List Char :=
  writeAs (.choose (.ofChars cs)) cs

end Writing

end Toml
end Templating
