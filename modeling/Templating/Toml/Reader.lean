import Templating.Toml.Quoted
import Templating.Toml.Table

/-!
# Reading TOML

A document is read into sections, and these into a table. Arrays and tables
between brackets may go over several lines, with comments, and may end in a
comma; they may be nested to a fixed depth, and a key has at most as many names.
Nothing is said about what is wrong with a document that cannot be read.

Main definitions: `readItem` and `read?`.
-/

namespace Templating
namespace Toml

section Limits

/-- How deep brackets may be nested, and how many names a key may have. -/
def maxDepth : Nat :=
  80

end Limits

section Gaps

/-- Skips blanks inside a line. -/
def skipSpaces (cs : List Char) : List Char :=
  cs.dropWhile isSpace

/-- Skips blanks, line ends and comments; `comment` says that a comment has
begun. It fails at a control character. -/
def skipGap (comment : Bool) : List Char → Option (List Char)
  | [] => some []
  | '\r' :: '\n' :: rest => skipGap false rest
  | '\n' :: rest => skipGap false rest
  | '#' :: rest => skipGap true rest
  | c :: rest =>
      if comment then (if isControl c then none else skipGap true rest)
      else if isSpace c then skipGap false rest
      else some (c :: rest)

/-- Skips the rest of a line: blanks and perhaps a comment. -/
def skipLine (comment : Bool) : List Char → Option (List Char)
  | [] => some []
  | '\r' :: '\n' :: rest => some rest
  | '\n' :: rest => some rest
  | '#' :: rest => skipLine true rest
  | c :: rest =>
      if comment then (if isControl c then none else skipLine true rest)
      else if isSpace c then skipLine false rest
      else none

end Gaps

section Keys

/-- The characters of a name without quotes. -/
def isNameChar (c : Char) : Bool :=
  c.isAlphanum || c = '_' || c = '-'

/-- A name, with or without quotes. -/
def readName (cs : List Char) : Option (String × List Char) :=
  match cs with
  | '"' :: _ => (readQuotedLine cs).map (Prod.map String.ofList id)
  | '\'' :: _ => (readQuotedLine cs).map (Prod.map String.ofList id)
  | _ =>
      match cs.takeWhile isNameChar with
      | [] => none
      | name => some (String.ofList name, cs.dropWhile isNameChar)

/-- At most so many names with dots between them, the last one first. -/
def readNames : Nat → List String → Read (List String)
  | 0, _, _ => none
  | more + 1, names, cs => do
      let (name, rest) ← readName cs
      match skipSpaces rest with
      | '.' :: rest => readNames more (name :: names) (skipSpaces rest)
      | rest => some (name :: names, rest)

/-- A dotted key and the blanks behind it. -/
def readKey (cs : List Char) : Option (Key × List Char) := do
  let (names, rest) ← readNames maxDepth [] cs
  match names with
  | [] => none
  | name :: path => some (⟨path.reverse, name⟩, rest)

end Keys

section Items

/-- Whether a character ends a word. -/
def endsWord (c : Char) : Bool :=
  ['=', ',', '[', ']', '{', '}', '#', ' ', '\t', '\r', '\n'].contains c

/-- A value that is written as one word. After a date, one blank and a digit go
on with a time. -/
def readWord (cs : List Char) : Option (Item × List Char) :=
  let word := cs.takeWhile fun c => !endsWord c
  let rest := cs.dropWhile fun c => !endsWord c
  match Date.ofText? word, rest with
  | some _, ' ' :: c :: more =>
      if c.isDigit then
        let time := (c :: more).takeWhile fun c => !endsWord c
        (Item.ofWord? (word ++ ' ' :: time)).map
          (·, (c :: more).dropWhile fun c => !endsWord c)
      else
        (Item.ofWord? word).map (·, rest)
  | _, _ => (Item.ofWord? word).map (·, rest)

/-- A key, an equals sign and a value; `skip` skips what may stand on either
side of the equals sign. -/
def readPair (skip : List Char → Option (List Char)) (item : Read Item)
    (cs : List Char) : Option (Pair × List Char) := do
  let (key, rest) ← readKey cs
  match ← skip rest with
  | '=' :: rest =>
      let (item, rest) ← item (← skip rest)
      some (⟨key, item⟩, rest)
  | _ => none

/-- What is between brackets, up to the closing one, with commas. -/
def readList {α : Type} (one : Read α) (close : Char) : Nat → Read (List α)
  | 0, _ => none
  | fuel + 1, cs => do
      match ← skipGap false cs with
      | [] => none
      | c :: rest =>
          if c = close then
            some ([], rest)
          else
            let (x, rest) ← one (c :: rest)
            match ← skipGap false rest with
            | [] => none
            | d :: rest =>
                if d = close then
                  some ([x], rest)
                else if d = ',' then
                  let (xs, rest) ← readList one close fuel rest
                  some (x :: xs, rest)
                else
                  none

/-- A value with brackets nested at most so deep. -/
def readItem : Nat → Read Item
  | 0, cs =>
      match cs with
      | '"' :: _ => (readQuoted cs).map (Prod.map (.string ∘ String.ofList) id)
      | '\'' :: _ => (readQuoted cs).map (Prod.map (.string ∘ String.ofList) id)
      | _ => readWord cs
  | depth + 1, cs =>
      match cs with
      | '"' :: _ => (readQuoted cs).map (Prod.map (.string ∘ String.ofList) id)
      | '\'' :: _ => (readQuoted cs).map (Prod.map (.string ∘ String.ofList) id)
      | '[' :: rest =>
          (readList (readItem depth) ']' (rest.length + 1) rest).map
            (Prod.map .array id)
      | '{' :: rest => do
          let (pairs, rest) ←
            readList (readPair (skipGap false) (readItem depth)) '}'
              (rest.length + 1) rest
          let table ← Table.ofPairs? pairs
          some (.table table, rest)
      | _ => readWord cs

end Items

section Documents

/-- A header up to its closing brackets. -/
def readHeader : Read Header
  | '[' :: '[' :: rest => do
      let (key, rest) ← readKey (skipSpaces rest)
      match rest with
      | ']' :: ']' :: rest => some (⟨key, true⟩, rest)
      | _ => none
  | '[' :: rest => do
      let (key, rest) ← readKey (skipSpaces rest)
      match rest with
      | ']' :: rest => some (⟨key, false⟩, rest)
      | _ => none
  | _ => none

/-- What stands on a line of its own. -/
inductive Line where
  | header (header : Header)
  | pair (pair : Pair)

/-- A header or a pair. -/
def readEntry (cs : List Char) : Option (Line × List Char) :=
  match cs with
  | '[' :: _ => (readHeader cs).map (Prod.map .header id)
  | _ =>
      (readPair (some ∘ skipSpaces) (readItem maxDepth) cs).map
        (Prod.map .pair id)

/-- Lines to the end of the document. -/
def readLines : Nat → List Char → Option (List Line)
  | 0, _ => none
  | fuel + 1, cs => do
      match ← skipGap false cs with
      | [] => some []
      | cs =>
          let (line, rest) ← readEntry cs
          let rest ← skipLine false rest
          let lines ← readLines fuel rest
          some (line :: lines)

/-- Lines put together to sections; `header` is that of the first one. -/
def sectionsOf (header : Option Header) : List Line → List Section
  | [] => [⟨header, []⟩]
  | .header h :: rest => ⟨header, []⟩ :: sectionsOf (some h) rest
  | .pair p :: rest =>
      match sectionsOf header rest with
      | [] => [⟨header, [p]⟩]
      | s :: more => { s with pairs := p :: s.pairs } :: more

/-- The table of a document. A mark of the byte order may stand in front. -/
def read? (text : String) : Option Table :=
  let cs :=
    match text.toList with
    | '\ufeff' :: rest => rest
    | cs => cs
  (readLines (cs.length + 1) cs).bind fun lines =>
    Table.ofSections? (sectionsOf none lines)

end Documents

end Toml
end Templating
