import Templating.Calendar

/-!
# Dates and times in TOML

A date, a time of day, or both; with both, also an offset from universal time.
The text of a datetime is normalised: a capital `T` between date and time,
seconds always shown, and no zeros at the end of a fraction.

Main definitions: `Datetime`, `Datetime.text` and `Datetime.ofText?`.
-/

namespace Templating
namespace Toml

section Types

/-- A day of a year. -/
structure Date where
  year : Nat
  month : Nat
  day : Nat
deriving DecidableEq, Repr

/-- A time of day. -/
structure Time where
  hour : Nat
  minute : Nat
  second : Nat
  nanos : Nat
deriving DecidableEq, Repr

/-- Universal time, or minutes ahead of it. -/
inductive Offset where
  | universal
  | minutes (ahead : Int)
deriving DecidableEq, Repr

/-- A date, a time, or both. -/
inductive Datetime where
  | date (date : Date)
  | time (time : Time)
  | both (date : Date) (time : Time) (offset : Option Offset)
deriving DecidableEq, Repr

end Types

section Writing

/-- A number in at least so many digits. -/
def digits (width n : Nat) : List Char :=
  let cs := Nat.toDigits 10 n
  List.replicate (width - cs.length) '0' ++ cs

/-- Year, month and day with hyphens. -/
def Date.text (d : Date) : List Char :=
  digits 4 d.year ++ '-' :: digits 2 d.month ++ '-' :: digits 2 d.day

/-- Hour, minute and second with colons, and the fraction if there is one. -/
def Time.text (t : Time) : List Char :=
  let fraction :=
    if t.nanos = 0 then []
    else '.' :: ((digits 9 t.nanos).reverse.dropWhile (· = '0')).reverse
  digits 2 t.hour ++ ':' :: digits 2 t.minute ++ ':' :: digits 2 t.second ++
    fraction

/-- A `Z`, or a sign with hours and minutes. -/
def Offset.text : Offset → List Char
  | .universal => ['Z']
  | .minutes n =>
      (if n < 0 then '-' else '+') :: digits 2 (n.natAbs / 60) ++
        ':' :: digits 2 (n.natAbs % 60)

/-- The normalised text. -/
def Datetime.text : Datetime → List Char
  | .date d => d.text
  | .time t => t.text
  | .both d t offset =>
      d.text ++ 'T' :: t.text ++ ((offset.map Offset.text).getD [])

end Writing

section Reading

/-- A number of exactly two digits. -/
def twoDigits? (a b : Char) : Option Nat :=
  if a.isDigit ∧ b.isDigit then some (Nat.ofDigitChars 10 [a, b] 0) else none

/-- The number of days in a month of a year. -/
def monthLength (year month : Nat) : Nat :=
  (Calendar.monthLengths year).getD (month - 1) 0

/-- The date in ten characters. -/
def Date.ofText? : List Char → Option Date
  | [a, b, c, d, '-', e, f, '-', g, h] => do
      let century ← twoDigits? a b
      let rest ← twoDigits? c d
      let year := century * 100 + rest
      let month ← twoDigits? e f
      let day ← twoDigits? g h
      if 1 ≤ month ∧ month ≤ 12 ∧ 1 ≤ day ∧ day ≤ monthLength year month then
        some ⟨year, month, day⟩
      else
        none
  | _ => none

/-- The nanoseconds of a fraction; digits after the ninth are dropped. -/
def nanosOf (fraction : List Char) : Nat :=
  let nine := fraction.take 9
  Nat.ofDigitChars 10 nine 0 * Nat.pow 10 (9 - nine.length)

/-- A fraction after the seconds, if there is one, and what follows. -/
def readFraction : List Char → Option (Nat × List Char)
  | '.' :: rest =>
      match rest.takeWhile Char.isDigit with
      | [] => none
      | fraction => some (nanosOf fraction, rest.dropWhile Char.isDigit)
  | rest => some (0, rest)

/-- The seconds, which may be left out, and what follows. -/
def readSeconds : List Char → Option ((Nat × Nat) × List Char)
  | ':' :: a :: b :: rest => do
      let second ← twoDigits? a b
      let (nanos, rest) ← readFraction rest
      if second ≤ 60 then some ((second, nanos), rest) else none
  | ':' :: _ => none
  | rest => some ((0, 0), rest)

/-- A time of day, and what follows. -/
def readTime : List Char → Option (Time × List Char)
  | a :: b :: ':' :: c :: d :: rest => do
      let hour ← twoDigits? a b
      let minute ← twoDigits? c d
      let ((second, nanos), rest) ← readSeconds rest
      if hour ≤ 23 ∧ minute ≤ 59 then some (⟨hour, minute, second, nanos⟩, rest)
      else none
  | _ => none

/-- An offset. -/
def Offset.ofText? : List Char → Option Offset
  | ['Z'] => some .universal
  | ['z'] => some .universal
  | [sign, a, b, ':', c, d] => do
      let hour ← twoDigits? a b
      let minute ← twoDigits? c d
      let ahead : Int := hour * 60 + minute
      if 23 < hour ∨ 59 < minute then none
      else if sign = '+' then some (.minutes ahead)
      else if sign = '-' then some (.minutes (-ahead))
      else none
  | _ => none

/-- A date and a time, with what may follow the time. -/
def Datetime.ofParts? (date time : List Char) : Option Datetime := do
  let d ← Date.ofText? date
  let (t, rest) ← readTime time
  match rest with
  | [] => some (.both d t none)
  | rest => (Offset.ofText? rest).map fun offset => .both d t (some offset)

/-- The datetime of a text. A time may follow its date after a `T` or one
space. -/
def Datetime.ofText? (cs : List Char) : Option Datetime :=
  match cs.drop 10 with
  | [] =>
      match Date.ofText? cs with
      | some d => some (.date d)
      | none =>
          match readTime cs with
          | some (t, []) => some (.time t)
          | _ => none
  | mark :: rest =>
      if mark = 'T' ∨ mark = 't' ∨ mark = ' ' then
        Datetime.ofParts? (cs.take 10) rest
      else
        match readTime cs with
        | some (t, []) => some (.time t)
        | _ => none

end Reading

end Toml
end Templating
