import Templating.Toml.Item

/-!
# Quoted strings in TOML

A string stands between quotes: double ones, in which a backslash starts an
escape, or single ones, in which every character stands for itself. Three quotes
on each side enclose a string over several lines.

Each reader gives the content and what follows the closing quotes. It fails on a
string that is not closed, on an unknown escape, and on control characters.

Main definitions: `readBasic`, `readBasicLines`, `readLiteral`,
`readLiteralLines`, and `readQuoted`, which chooses by the opening quotes.
-/

namespace Templating
namespace Toml

section Escapes

/-- A reader takes a value off the front of a text. -/
abbrev Read (α : Type) := List Char → Option (α × List Char)

/-- Control characters other than the tab. -/
def isControl (c : Char) : Bool :=
  (c < ' ' && c != '\t') || c = '\x7f'

/-- Blanks inside a line. -/
def isSpace (c : Char) : Bool :=
  c = ' ' || c = '\t'

/-- The character of an escape with one letter. -/
def letterEscape? : Char → Option Char
  | 'b' => some '\x08'
  | 't' => some '\t'
  | 'n' => some '\n'
  | 'f' => some '\x0c'
  | 'r' => some '\r'
  | 'e' => some '\x1b'
  | '"' => some '"'
  | '\\' => some '\\'
  | _ => none

/-- The character with a code point in hexadecimal digits. -/
def codePoint? (cs : List Char) : Option Char :=
  if cs.all Text.isHexDigit ∧ (Text.ofDigits 16 cs).isValidChar then
    some (Char.ofNat (Text.ofDigits 16 cs))
  else
    none

/-- The character of an escape, after the backslash. -/
def readEscape : Read Char
  | 'x' :: a :: b :: rest => (codePoint? [a, b]).map (·, rest)
  | 'u' :: a :: b :: c :: d :: rest => (codePoint? [a, b, c, d]).map (·, rest)
  | 'U' :: a :: b :: c :: d :: e :: f :: g :: h :: rest =>
      (codePoint? [a, b, c, d, e, f, g, h]).map (·, rest)
  | c :: rest => (letterEscape? c).map (·, rest)
  | [] => none

/-- An escape leaves a shorter text. -/
theorem length_lt_of_readEscape {cs rest : List Char} {c : Char}
    (h : readEscape cs = some (c, rest)) : rest.length < cs.length := by
  unfold readEscape at h
  split at h
  · obtain ⟨_, _, hr⟩ := Option.map_eq_some_iff.1 h
    cases hr
    simp
    omega
  · obtain ⟨_, _, hr⟩ := Option.map_eq_some_iff.1 h
    cases hr
    simp
    omega
  · obtain ⟨_, _, hr⟩ := Option.map_eq_some_iff.1 h
    cases hr
    simp
    omega
  · obtain ⟨_, _, hr⟩ := Option.map_eq_some_iff.1 h
    cases hr
    simp
  · cases h

end Escapes

section OneLine

/-- A character in front of what a reader has read. -/
def push (c : Char) (r : Option (List Char × List Char)) :
    Option (List Char × List Char) :=
  r.map fun p => (c :: p.1, p.2)

/-- A string up to its double quote. -/
def readBasic : Read (List Char)
  | [] => none
  | '"' :: rest => some ([], rest)
  | '\\' :: rest =>
      match h : readEscape rest with
      | none => none
      | some (c, rest') =>
          have := length_lt_of_readEscape h
          push c (readBasic rest')
  | c :: rest => if isControl c then none else push c (readBasic rest)
termination_by cs => cs.length

/-- A string up to its single quote. -/
def readLiteral : Read (List Char)
  | [] => none
  | '\'' :: rest => some ([], rest)
  | c :: rest => if isControl c then none else push c (readLiteral rest)

end OneLine

section Lines

/-- After three quotes, up to two more belong to the string. -/
def closing (quote : Char) : List Char → List Char × List Char
  | a :: b :: rest =>
      if a = quote ∧ b = quote then ([quote, quote], rest)
      else if a = quote then ([quote], b :: rest)
      else ([], a :: b :: rest)
  | [a] => if a = quote then ([quote], []) else ([], [a])
  | [] => ([], [])

/-- Whether a line ends after blanks. -/
def endsLine (cs : List Char) : Bool :=
  match cs.dropWhile isSpace with
  | '\n' :: _ => true
  | '\r' :: '\n' :: _ => true
  | _ => false

/-- A string over several lines up to its three double quotes. A backslash at
the end of a line joins the lines; while `joining`, blanks and line ends are
skipped. A carriage return can only stand before a line feed. -/
def readBasicLines (joining : Bool) : Read (List Char)
  | [] => none
  | '\r' :: '\n' :: rest =>
      if joining then readBasicLines true rest
      else push '\r' (push '\n' (readBasicLines false rest))
  | '\n' :: rest =>
      if joining then readBasicLines true rest
      else push '\n' (readBasicLines false rest)
  | '"' :: '"' :: '"' :: rest => some (closing '"' rest)
  | '\\' :: rest =>
      if endsLine rest then
        readBasicLines true rest
      else
        match h : readEscape rest with
        | none => none
        | some (c, rest') =>
            have := length_lt_of_readEscape h
            push c (readBasicLines false rest')
  | c :: rest =>
      if joining && isSpace c then readBasicLines true rest
      else if isControl c then none
      else push c (readBasicLines false rest)
termination_by cs => cs.length

/-- A string over several lines up to its three single quotes. A carriage return
can only stand before a line feed. -/
def readLiteralLines : Read (List Char)
  | [] => none
  | '\r' :: '\n' :: rest => push '\r' (push '\n' (readLiteralLines rest))
  | '\n' :: rest => push '\n' (readLiteralLines rest)
  | '\'' :: '\'' :: '\'' :: rest => some (closing '\'' rest)
  | c :: rest => if isControl c then none else push c (readLiteralLines rest)

/-- A line end right after the opening quotes does not belong to the string. -/
def dropLineEnd : List Char → List Char
  | '\r' :: '\n' :: rest => rest
  | '\n' :: rest => rest
  | rest => rest

end Lines

section Quoted

/-- A quoted string. -/
def readQuoted : Read (List Char)
  | '"' :: '"' :: '"' :: rest => readBasicLines false (dropLineEnd rest)
  | '"' :: rest => readBasic rest
  | '\'' :: '\'' :: '\'' :: rest => readLiteralLines (dropLineEnd rest)
  | '\'' :: rest => readLiteral rest
  | _ => none

/-- A quoted string on one line. -/
def readQuotedLine : Read (List Char)
  | '"' :: '"' :: '"' :: _ => none
  | '"' :: rest => readBasic rest
  | '\'' :: '\'' :: '\'' :: _ => none
  | '\'' :: rest => readLiteral rest
  | _ => none

end Quoted

end Toml
end Templating
