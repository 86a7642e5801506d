import Templating.Value

/-!
# Reading JSON

A strict reader: no comments, no trailing commas, no leading zeros, no control
characters in strings, no half surrogate pairs. Of two fields with one name the
last counts. Containers may be nested to a fixed depth.

A number without fraction and exponent that fits in 64 bits is an integer. For
all others the digits that fit in 64 bits are rounded to a double, which is then
scaled by the power of ten; a number that overflows is refused.

Main definition: `Json.read?`.
-/

namespace Templating
namespace Json

section Blanks

/-- The four blanks of JSON. -/
def isSpace (c : Char) : Bool :=
  c == ' ' || c == '\n' || c == '\t' || c == '\r'

/-- The text without the blanks in front. -/
def skipSpace (cs : List Char) : List Char :=
  cs.dropWhile isSpace

end Blanks

section Strings

/-- The value of a hexadecimal digit of either case. -/
def hexValue? (c : Char) : Option Nat :=
  if '0' ≤ c ∧ c ≤ '9' then some (c.toNat - 48)
  else if 'a' ≤ c ∧ c ≤ 'f' then some (c.toNat - 87)
  else if 'A' ≤ c ∧ c ≤ 'F' then some (c.toNat - 55)
  else none

/-- The value of four hexadecimal digits. -/
def hex4? (a b c d : Char) : Option Nat := do
  let a ← hexValue? a
  let b ← hexValue? b
  let c ← hexValue? c
  let d ← hexValue? d
  some (((a * 16 + b) * 16 + c) * 16 + d)

/-- The first half of a surrogate pair. -/
def isHighSurrogate (n : Nat) : Bool :=
  0xd800 ≤ n && n ≤ 0xdbff

/-- The second half of a surrogate pair. -/
def isLowSurrogate (n : Nat) : Bool :=
  0xdc00 ≤ n && n ≤ 0xdfff

/-- The character that a one-letter escape stands for. -/
def escaped? : Char → Option Char
  | '"' => some '"'
  | '\\' => some '\\'
  | '/' => some '/'
  | 'b' => some '\x08'
  | 'f' => some '\x0c'
  | 'n' => some '\n'
  | 'r' => some '\r'
  | 't' => some '\t'
  | _ => none

/-- The characters of a string after its opening quote, and what follows the
closing one. -/
def readString : List Char → Option (List Char × List Char)
  | [] => none
  | '"' :: rest => some ([], rest)
  | '\\' :: 'u' :: a :: b :: c :: d :: rest => do
      let n ← hex4? a b c d
      if isHighSurrogate n then
        match rest with
        | '\\' :: 'u' :: e :: f :: g :: h :: rest =>
            let low ← hex4? e f g h
            if isLowSurrogate low then
              let code := 0x10000 + (n - 0xd800) * 0x400 + (low - 0xdc00)
              (readString rest).map (Prod.map (Char.ofNat code :: ·) id)
            else
              none
        | _ => none
      else if isLowSurrogate n then
        none
      else
        (readString rest).map (Prod.map (Char.ofNat n :: ·) id)
  | '\\' :: e :: rest => do
      let c ← escaped? e
      (readString rest).map (Prod.map (c :: ·) id)
  | c :: rest =>
      if c.toNat < 0x20 ∨ c = '\\' then
        none
      else
        (readString rest).map (Prod.map (c :: ·) id)

end Strings

section Numbers

/-- The digits at the front, and what follows them. -/
def spanDigits (cs : List Char) : List Char × List Char :=
  cs.span Char.isDigit

/-- The value of a digit. -/
def digitValue (c : Char) : Nat :=
  c.toNat - 48

/-- The largest integer that the digits of a number are gathered in. -/
def maxDigits : Nat :=
  Nat.pow 2 64 - 1

/-- Gathers the digits before the point. From the first digit that does not fit,
digits count only as powers of ten. -/
def gatherWhole : Nat → List Char → Nat × Nat
  | n, [] => (n, 0)
  | n, c :: cs =>
      if n * 10 + digitValue c ≤ maxDigits then
        gatherWhole (n * 10 + digitValue c) cs
      else
        (n, cs.length + 1)

/-- Gathers the digits after the point, up to the first that does not fit, and
counts them. -/
def gatherFraction : Nat → Nat → List Char → Nat × Nat
  | n, places, [] => (n, places)
  | n, places, c :: cs =>
      if n * 10 + digitValue c ≤ maxDigits then
        gatherFraction (n * 10 + digitValue c) (places + 1) cs
      else
        (n, places)

/-- The digits before the point: a zero stands alone. -/
def readWhole (cs : List Char) : Option (List Char × List Char) :=
  match spanDigits cs with
  | ([], _) => none
  | (['0'], rest) => some (['0'], rest)
  | ('0' :: _, _) => none
  | r => some r

/-- The digits after the point, if there is a point; at least one. -/
def readFraction : List Char → Option (Option (List Char) × List Char)
  | '.' :: rest =>
      match spanDigits rest with
      | ([], _) => none
      | (digits, rest) => some (some digits, rest)
  | rest => some (none, rest)

/-- An exponent with its sign; at least one digit. -/
def readSigned (negative : Bool) (cs : List Char) :
    Option (Option Int × List Char) :=
  match spanDigits cs with
  | ([], _) => none
  | (digits, rest) =>
      let n : Int := Nat.ofDigitChars 10 digits 0
      some (some (if negative then -n else n), rest)

/-- The exponent, if there is one. -/
def readExponent : List Char → Option (Option Int × List Char)
  | c :: rest =>
      if c = 'e' ∨ c = 'E' then
        match rest with
        | '+' :: rest => readSigned false rest
        | '-' :: rest => readSigned true rest
        | rest => readSigned false rest
      else
        some (none, c :: rest)
  | [] => some (none, [])

/-- An integer of 64 bits, signed or not; minus zero is not one. -/
def integer? (negative : Bool) (n : Nat) : Option Int :=
  if negative then
    if n = 0 ∨ Nat.pow 2 63 < n then none else some (-n)
  else
    if n ≤ maxDigits then some n else none

/-- A number, given its parts. -/
def numberOf
    (negative : Bool) (whole : List Char)
    (fraction : Option (List Char)) (exponent : Option Int) :
    Option Number :=
  let plain :=
    match fraction, exponent with
    | none, none => integer? negative (Nat.ofDigitChars 10 whole 0)
    | _, _ => none
  match plain with
  | some n => some (.integer n)
  | none =>
      let (n, dropped) := gatherWhole 0 whole
      let (n, places) := gatherFraction n 0 (fraction.getD [])
      let power : Int := dropped - places + exponent.getD 0
      (Binary64.ofScaled negative n power).map .double

/-- A number and what follows it. -/
def readNumber (cs : List Char) : Option (Number × List Char) := do
  let (negative, cs) :=
    match cs with
    | '-' :: rest => (true, rest)
    | cs => (false, cs)
  let (whole, cs) ← readWhole cs
  let (fraction, cs) ← readFraction cs
  let (exponent, cs) ← readExponent cs
  let n ← numberOf negative whole fraction exponent
  some (n, cs)

end Numbers

section Values

/-- A reader of one thing at the front of a text. -/
abbrev Read (α : Type) := List Char → Option (α × List Char)

/-- Items up to the closing bracket, with a comma between any two. -/
def readItems (one : Read Value) : Nat → Read (List Value)
  | 0, _ => none
  | fuel + 1, cs => do
      let (v, rest) ← one (skipSpace cs)
      match skipSpace rest with
      | ',' :: rest =>
          let (vs, rest) ← readItems one fuel rest
          some (v :: vs, rest)
      | ']' :: rest => some ([v], rest)
      | _ => none

/-- Fields up to the closing brace, with a comma between any two. -/
def readFields (one : Read Value) : Nat → Read (List (String × Value))
  | 0, _ => none
  | fuel + 1, cs => do
      match skipSpace cs with
      | '"' :: rest =>
          let (key, rest) ← readString rest
          match skipSpace rest with
          | ':' :: rest =>
              let (v, rest) ← one (skipSpace rest)
              match skipSpace rest with
              | ',' :: rest =>
                  let (fs, rest) ← readFields one fuel rest
                  some ((String.ofList key, v) :: fs, rest)
              | '}' :: rest => some ([(String.ofList key, v)], rest)
              | _ => none
          | _ => none
      | _ => none

/-- A value that is not a container. -/
def readScalar : Read Value
  | 'n' :: 'u' :: 'l' :: 'l' :: rest => some (.null, rest)
  | 't' :: 'r' :: 'u' :: 'e' :: rest => some (.bool true, rest)
  | 'f' :: 'a' :: 'l' :: 's' :: 'e' :: rest => some (.bool false, rest)
  | '"' :: rest =>
      (readString rest).map (Prod.map (.string ∘ String.ofList) id)
  | cs => (readNumber cs).map (Prod.map .number id)

/-- A value in which containers are nested at most so deep. -/
def readValue : Nat → Read Value
  | 0, cs => readScalar cs
  | depth + 1, '[' :: rest =>
      match skipSpace rest with
      | ']' :: rest => some (.array [], rest)
      | rest =>
          (readItems (readValue depth) (rest.length + 1) rest).map
            (Prod.map .array id)
  | depth + 1, '{' :: rest =>
      match skipSpace rest with
      | '}' :: rest => some (.object [], rest)
      | rest =>
          (readFields (readValue depth) (rest.length + 1) rest).map
            (Prod.map .ofFields id)
  | _ + 1, cs => readScalar cs

/-- How deep containers may be nested. -/
def maxDepth : Nat :=
  127

/-- The value of a JSON text: one value with blanks around it. -/
def read? (text : String) : Option Value :=
  match readValue maxDepth (skipSpace text.toList) with
  | some (v, rest) => if (skipSpace rest).isEmpty then some v else none
  | none => none

end Values

end Json
end Templating
