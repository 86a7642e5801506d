import Templating.Calendar

/-!
# Date formats

A format is a text with directives: a percent sign, perhaps a modifier, and a
letter. A directive stands for one or more items of a date; a number can be
padded otherwise than usual. A format with an unknown directive stands for
nothing at all.

Main definitions:

* `Item`, what a directive stands for, and `Item.write`;
* `Format.items?`, the items of a format;
* `Moment.format?`, a date in a format.
-/

namespace Templating
namespace Calendar

section Items

/-- The numbers of a date. -/
inductive Quantity where
  | year
  | century
  | yearOfCentury
  | isoYear
  | isoYearOfCentury
  | quarter
  | month
  | day
  | weekFromSunday
  | weekFromMonday
  | isoWeek
  | weekdayFromSunday
  | weekdayFromMonday
  | dayOfYear
  | hour
  | hour12
  | minute
  | second
  | nanosecond
  | timestamp
deriving DecidableEq, Repr

/-- What fills a number up to its width. -/
inductive Pad where
  | none
  | zero
  | space
deriving DecidableEq, Repr

/-- How much of an offset is shown. -/
inductive OffsetPrecision where
  /-- Hours; the rest is dropped. -/
  | hours
  /-- Hours and minutes; seconds are rounded. -/
  | minutes
  | seconds
deriving DecidableEq, Repr

/-- One item of a date format. -/
inductive Item where
  | literal (content : List Char)
  | number (quantity : Quantity) (pad : Pad)
  | monthName (short : Bool)
  | weekdayName (short : Bool)
  | halfDay (upper : Bool)
  /-- So many digits of the fraction of the second, perhaps after a point. -/
  | fraction (digits : Nat) (point : Bool)
  /-- As many digits of the fraction as are needed, by threes; none for zero. -/
  | shortFraction
  | offset (precision : OffsetPrecision) (colons : Bool)
  /-- The offset with seconds only if it has any. -/
  | zoneName
  /-- Four digits, or a sign and at least five. -/
  | fullYear
deriving DecidableEq, Repr

end Items

section Names

/-- The names of the months. -/
def monthNames : List String :=
  ["January", "February", "March", "April", "May", "June", "July", "August",
    "September", "October", "November", "December"]

/-- The names of the weekdays from Monday. -/
def weekdayNames : List String :=
  ["Monday", "Tuesday", "Wednesday", "Thursday", "Friday", "Saturday", "Sunday"]

/-- A name, or the first three letters of it. -/
def nameText (short : Bool) (name : String) : List Char :=
  if short then name.toList.take 3 else name.toList

end Names

section Writing

/-- A number in decimal digits. -/
def decimal (n : Nat) : List Char :=
  Nat.toDigits 10 n

/-- A text filled up from the left. -/
def fill (c : Char) (width : Nat) (cs : List Char) : List Char :=
  List.replicate (width - cs.length) c ++ cs

/-- A number filled up to a width. -/
def padded (pad : Pad) (width n : Nat) : List Char :=
  match pad with
  | .none => decimal n
  | .zero => fill '0' width (decimal n)
  | .space => fill ' ' width (decimal n)

/-- Two digits. -/
def twoDigits (n : Nat) : List Char :=
  padded .zero 2 n

/-- A year: four digits, or a sign in front of more. -/
def yearText (pad : Pad) (year : Int) : List Char :=
  if 0 ≤ year ∧ year ≤ 9999 then padded pad 4 year.toNat
  else
    (if year < 0 then '-' else '+') :: fill '0' 4 (decimal year.natAbs)

/-- A number of at most 255 in units of ten, where the digit for the tens goes
on after the nine in the order of the characters. -/
def tensAndOnes (pad : Pad) (n : Nat) : List Char :=
  let ones := Char.ofNat (48 + n % 10)
  match n / 10, pad with
  | 0, .none => [ones]
  | 0, .space => [' ', ones]
  | tens, _ => [Char.ofNat (48 + tens), ones]

/-- A number of a date. -/
def Quantity.write (m : Moment) (pad : Pad) : Quantity → List Char
  | .year => yearText pad m.year
  | .century => tensAndOnes pad (m.year / 100 % 256).toNat
  | .yearOfCentury => padded pad 2 (m.year % 100).toNat
  | .isoYear => yearText pad m.isoYear
  | .isoYearOfCentury => padded pad 2 (m.isoYear % 100).toNat
  | .quarter => decimal m.quarter
  | .month => padded pad 2 m.month
  | .day => padded pad 2 m.day
  | .weekFromSunday => padded pad 2 m.weekFromSunday
  | .weekFromMonday => padded pad 2 m.weekFromMonday
  | .isoWeek => padded pad 2 m.isoWeek
  | .weekdayFromSunday => decimal m.weekdayFromSunday
  | .weekdayFromMonday => decimal (m.weekday + 1)
  | .dayOfYear => padded pad 3 (m.dayOfYear + 1)
  | .hour => padded pad 2 m.hour
  | .hour12 => padded pad 2 m.hour12
  | .minute => padded pad 2 m.minute
  | .second => padded pad 2 m.second
  | .nanosecond => padded pad 9 m.nanos
  | .timestamp =>
      if m.timestamp < 0 then '-' :: padded pad 8 m.timestamp.natAbs
      else padded pad 9 m.timestamp.natAbs

/-- The first digits of a fraction of nine. -/
def fractionText (digits nanos : Nat) : List Char :=
  (fill '0' 9 (decimal nanos)).take digits

/-- The sign of an offset. -/
def signText (offset : Int) : Char :=
  if offset < 0 then '-' else '+'

/-- The parts of an offset, with or without colons. -/
def offsetText (precision : OffsetPrecision) (colons : Bool) (offset : Int) :
    List Char :=
  let colon := if colons then [':'] else []
  let size := offset.natAbs
  signText offset ::
    match precision with
    | .hours => twoDigits (size / 3600)
    | .minutes =>
        let minutes := (size + 30) / 60
        twoDigits (minutes / 60) ++ colon ++ twoDigits (minutes % 60)
    | .seconds =>
        twoDigits (size / 3600) ++ colon ++ twoDigits (size / 60 % 60) ++
          colon ++ twoDigits (size % 60)

/-- An item of a date. -/
def Item.write (m : Moment) : Item → List Char
  | .literal content => content
  | .number quantity pad => quantity.write m pad
  | .monthName short => nameText short (monthNames.getD (m.month - 1) "")
  | .weekdayName short => nameText short (weekdayNames.getD m.weekday "")
  | .halfDay upper =>
      match upper, decide (m.hour < 12) with
      | true, true => ['A', 'M']
      | true, false => ['P', 'M']
      | false, true => ['a', 'm']
      | false, false => ['p', 'm']
  | .fraction digits point =>
      (if point then ['.'] else []) ++ fractionText digits m.nanos
  | .shortFraction =>
      if m.nanos = 0 then []
      else if m.nanos % 1000000 = 0 then '.' :: fractionText 3 m.nanos
      else if m.nanos % 1000 = 0 then '.' :: fractionText 6 m.nanos
      else '.' :: fractionText 9 m.nanos
  | .offset precision colons => offsetText precision colons m.offset
  | .zoneName =>
      if m.offset % 60 = 0 then offsetText .minutes true m.offset
      else offsetText .seconds true m.offset
  | .fullYear => yearText .zero m.year

end Writing

section Directives

/-- A number that is usually filled with zeros. -/
def number0 (quantity : Quantity) : Item :=
  .number quantity .zero

/-- A number that is usually filled with spaces. -/
def numberS (quantity : Quantity) : Item :=
  .number quantity .space

/-- One character between items. -/
def mark (c : Char) : Item :=
  .literal [c]

/-- Hours and minutes. -/
def hourMinute : List Item :=
  [number0 .hour, mark ':', number0 .minute]

/-- Hours, minutes and seconds. -/
def timeOfDay : List Item :=
  hourMinute ++ [mark ':', number0 .second]

/-- Month, day and the last two digits of the year. -/
def shortDate : List Item :=
  [number0 .month, mark '/', number0 .day, mark '/', number0 .yearOfCentury]

/-- The items of a directive that has no modifier. -/
def letter? : Char → Option (List Item)
  | 'A' => some [.weekdayName false]
  | 'B' => some [.monthName false]
  | 'C' => some [number0 .century]
  | 'D' => some shortDate
  | 'F' =>
      some [number0 .year, mark '-', number0 .month, mark '-', number0 .day]
  | 'G' => some [number0 .isoYear]
  | 'H' => some [number0 .hour]
  | 'I' => some [number0 .hour12]
  | 'M' => some [number0 .minute]
  | 'P' => some [.halfDay false]
  | 'R' => some hourMinute
  | 'S' => some [number0 .second]
  | 'T' => some timeOfDay
  | 'U' => some [number0 .weekFromSunday]
  | 'V' => some [number0 .isoWeek]
  | 'W' => some [number0 .weekFromMonday]
  | 'X' => some timeOfDay
  | 'Y' => some [number0 .year]
  | 'Z' => some [.zoneName]
  | 'a' => some [.weekdayName true]
  | 'b' => some [.monthName true]
  | 'c' =>
      some ([.weekdayName true, mark ' ', .monthName true, mark ' ',
        numberS .day, mark ' '] ++ timeOfDay ++ [mark ' ', number0 .year])
  | 'd' => some [number0 .day]
  | 'e' => some [numberS .day]
  | 'f' => some [number0 .nanosecond]
  | 'g' => some [number0 .isoYearOfCentury]
  | 'h' => some [.monthName true]
  | 'j' => some [number0 .dayOfYear]
  | 'k' => some [numberS .hour]
  | 'l' => some [numberS .hour12]
  | 'm' => some [number0 .month]
  | 'n' => some [mark '\n']
  | 'p' => some [.halfDay true]
  | 'q' => some [.number .quarter .none]
  | 'r' =>
      some [number0 .hour12, mark ':', number0 .minute, mark ':',
        number0 .second, mark ' ', .halfDay true]
  | 's' => some [.number .timestamp .none]
  | 't' => some [mark '\t']
  | 'u' => some [.number .weekdayFromMonday .none]
  | 'v' =>
      some [numberS .day, mark '-', .monthName true, mark '-', number0 .year]
  | 'w' => some [.number .weekdayFromSunday .none]
  | 'x' => some shortDate
  | 'y' => some [number0 .yearOfCentury]
  | 'z' => some [.offset .minutes false]
  | '+' =>
      some ([.fullYear, mark '-', number0 .month, mark '-', number0 .day,
        mark 'T'] ++ timeOfDay ++ [.shortFraction, .offset .minutes true])
  | '%' => some [mark '%']
  | _ => none

/-- What may stand between the percent sign and the letter. -/
inductive Modifier where
  | none
  | pad (pad : Pad)
  | point
  /-- So many digits, perhaps after a point. -/
  | digits (count : Nat) (point : Bool)
  | colons (count : Nat)
deriving DecidableEq, Repr

/-- The items of a directive. A single number can be padded otherwise. -/
def directive? (modifier : Modifier) (letter : Char) : Option (List Item) :=
  match modifier, letter with
  | .none, c => letter? c
  | .pad p, c =>
      match letter? c with
      | some [.number quantity _] => some [.number quantity p]
      | _ => Option.none
  | .point, 'f' => some [.shortFraction]
  | .digits count point, 'f' => some [.fraction count point]
  | .colons 1, 'z' => some [.offset .minutes true]
  | .colons 2, 'z' => some [.offset .seconds true]
  | .colons 3, 'z' => some [.offset .hours true]
  | _, _ => Option.none

/-- The numbers of digits that a fraction can have. -/
def digitCount? : Char → Option Nat
  | '3' => some 3
  | '6' => some 6
  | '9' => some 9
  | _ => none

/-- The modifier at the start of a text, and what follows it. -/
def modifier : List Char → Modifier × List Char
  | '-' :: rest => (.pad .none, rest)
  | '0' :: rest => (.pad .zero, rest)
  | '_' :: rest => (.pad .space, rest)
  | ':' :: ':' :: ':' :: rest => (.colons 3, rest)
  | ':' :: ':' :: rest => (.colons 2, rest)
  | ':' :: rest => (.colons 1, rest)
  | '.' :: [] => (.point, [])
  | '.' :: c :: rest =>
      match digitCount? c with
      | some count => (.digits count true, rest)
      | none => (.point, c :: rest)
  | c :: rest =>
      match digitCount? c with
      | some count => (.digits count false, rest)
      | none => (.none, c :: rest)
  | [] => (.none, [])

theorem length_modifier_le (cs : List Char) :
    (modifier cs).2.length ≤ cs.length := by
  unfold modifier
  repeat' split
  all_goals simp only [List.length_cons, List.length_nil]
  all_goals omega

/-- The letter of a directive leaves a shorter text. -/
theorem length_lt_of_modifier {cs rest : List Char} {m : Modifier} {c : Char}
    (h : modifier cs = (m, c :: rest)) : rest.length < cs.length := by
  have := length_modifier_le cs
  rw [h] at this
  simp only [List.length_cons] at this
  omega

end Directives

section Format

/-- The items of a format, if all its directives are known. -/
def items? : List Char → Option (List Item)
  | [] => some []
  | c :: rest =>
      if c = '%' then
        match h : modifier rest with
        | (_, []) => none
        | (m, letter :: rest') =>
            have := length_lt_of_modifier h
            match directive? m letter, items? rest' with
            | some items, some more => some (items ++ more)
            | _, _ => none
      else
        (items? rest).map (mark c :: ·)
termination_by cs => cs.length
decreasing_by
  all_goals simp only [List.length_cons]
  all_goals omega

/-- A date in a format, if the format is a valid one. -/
def Moment.format? (m : Moment) (format : String) : Option String :=
  (items? format.toList).map fun items =>
    String.ofList (items.flatMap (Item.write m))

end Format

end Calendar
end Templating
