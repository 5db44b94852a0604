import ChainIndex.Text.Blank
import ChainIndex.Text.Integer

/-!
# Timestamps

A point of the proleptic Gregorian calendar, year 0 included, with a second that may be a leap
second. The chain writes block times in one layout, which `ofBlockTime` reads; `ofText` reads the
layout of stored rows, which may have a fraction. The database counts microseconds from the start
of the year 2000.
-/

namespace ChainIndex

/-- A date and a time of day. -/
structure Timestamp where
  year : Int
  month : Nat
  day : Nat
  hour : Nat
  minute : Nat
  /-- Up to 60, which is a leap second. -/
  second : Nat
  nanosecond : Nat
deriving DecidableEq, Repr, Inhabited

namespace Timestamp

/-! ## The calendar -/

/-- Whether a year has a 29th of February. -/
def isLeap (year : Int) : Bool :=
  (year % 4 == 0 && year % 100 != 0) || year % 400 == 0

/-- The number of days of a month. -/
def daysInMonth (year : Int) (month : Nat) : Nat :=
  if month = 2 then (if isLeap year then 29 else 28)
  else if month = 4 ∨ month = 6 ∨ month = 9 ∨ month = 11 then 30
  else 31

/-- The first year of the calendar. -/
def firstYear : Int := -262143

/-- The last year of the calendar. -/
def lastYear : Int := 262142

/-- Whether there is such a date and such a time. -/
def onCalendar (t : Timestamp) : Bool :=
  firstYear ≤ t.year && t.year ≤ lastYear && 1 ≤ t.month && t.month ≤ 12 && 1 ≤ t.day &&
    t.day ≤ daysInMonth t.year t.month && t.hour < 24 && t.minute < 60 && t.second ≤ 60

/-- The day of a date, counted from the first of March of year 0. -/
def dayNumber (year : Int) (month day : Nat) : Int :=
  -- years and months are counted from March, so that the leap day comes last
  let y := if month ≤ 2 then year - 1 else year
  let m : Int := if month ≤ 2 then month + 9 else (month : Int) - 3
  365 * y + y / 4 - y / 100 + y / 400 + (153 * m + 2) / 5 + (day - 1)

/-- The date of a day counted from the first of March of year 0. -/
def ofDayNumber (n : Int) : Int × Nat × Nat :=
  -- 400 years have 146097 days; within them a day is dropped for every leap year and century
  let era := n / 146097
  let dayOfEra := n % 146097
  let yearOfEra := (dayOfEra - dayOfEra / 1460 + dayOfEra / 36524 - dayOfEra / 146096) / 365
  let dayOfYear := dayOfEra - (365 * yearOfEra + yearOfEra / 4 - yearOfEra / 100)
  let m := (5 * dayOfYear + 2) / 153
  let day := dayOfYear - (153 * m + 2) / 5 + 1
  -- January and February end the year that began in March
  let month := if m < 10 then m + 3 else m - 9
  let year := yearOfEra + era * 400 + (if month ≤ 2 then 1 else 0)
  (year, month.toNat, day.toNat)

/-- The day from which the database counts. -/
def epochDay : Int := dayNumber 2000 1 1

/-- Microseconds since the start of the year 2000, cut toward that moment. -/
def micros (t : Timestamp) : Int :=
  let seconds := (dayNumber t.year t.month t.day - epochDay) * 86400 +
    (t.hour * 3600 + t.minute * 60 + t.second : Nat)
  Int.tdiv (seconds * 1000000000 + t.nanosecond) 1000

/-- The time that lies so many microseconds after the start of the year 2000. -/
def ofMicros (n : Int) : Timestamp :=
  let seconds := n / 1000000
  let (year, month, day) := ofDayNumber (seconds / 86400 + epochDay)
  let ofDay := (seconds % 86400).toNat
  { year, month, day
    hour := ofDay / 3600
    minute := ofDay / 60 % 60
    second := ofDay % 60
    nanosecond := (n % 1000000).toNat * 1000 }

/-! ## Reading -/

/-- How many digits a number may have, if that is limited. -/
abbrev Width := Option Nat

/-- A number at the start of a text, blanks in front of it aside: its value and what follows. -/
def takeNumber (width : Width) (cs : List Char) : Option (Nat × List Char) :=
  let cs := cs.dropWhile Text.isBlank
  let run := cs.takeWhile Char.isDigit
  let digits := match width with
    | some n => run.take n
    | none => run
  if digits.isEmpty then none
  else some (Nat.ofDigitChars 10 digits 0, cs.drop digits.length)

/-- A year at the start of a text: up to four digits, or any number of them after a sign. -/
def takeYear (cs : List Char) : Option (Int × List Char) :=
  let signed (sign : Int) (cs : List Char) : Option (Int × List Char) :=
    -- no blank may stand between the sign and the digits
    if cs.head?.any Char.isDigit then
      (takeNumber none cs).map fun (n, rest) => (sign * n, rest)
    else none
  match cs.dropWhile Text.isBlank with
  | '+' :: rest => signed 1 rest
  | '-' :: rest => signed (-1) rest
  | rest => (takeNumber (some 4) rest).map fun (n, rest) => ((n : Int), rest)

/-- The layout of a timestamp: what may stand around its numbers. -/
structure Layout where
  /-- Blanks may also stand before the separators and at the end. -/
  spaced : Bool
  /-- The seconds may have a fraction. -/
  fraction : Bool

/-- Drop a separator, and the blanks before it if the layout has them. -/
def takeMark (layout : Layout) (mark : Char) (cs : List Char) : Option (List Char) :=
  let cs := if layout.spaced then cs.dropWhile Text.isBlank else cs
  match cs with
  | c :: rest => if c = mark then some rest else none
  | [] => none

/-- The nanoseconds of a fraction: its first nine digits count. -/
def takeFraction (cs : List Char) : Option (Nat × List Char) :=
  match cs with
  | '.' :: rest =>
    let digits := rest.takeWhile Char.isDigit
    if digits.isEmpty then none
    else
      -- what is finer than a nanosecond is dropped
      let kept := digits.take 9
      some (Nat.ofDigitChars 10 kept 0 * Nat.pow 10 (9 - kept.length), rest.drop digits.length)
  | _ => some (0, cs)

/-- The time that a whole text writes in a layout. -/
def readIn (layout : Layout) (s : String) : Option Timestamp := do
  let (year, cs) ← takeYear s.toList
  let cs ← takeMark layout '-' cs
  let (month, cs) ← takeNumber (some 2) cs
  let cs ← takeMark layout '-' cs
  let (day, cs) ← takeNumber (some 2) cs
  let cs ← takeMark layout 'T' cs
  let (hour, cs) ← takeNumber (some 2) cs
  let cs ← takeMark layout ':' cs
  let (minute, cs) ← takeNumber (some 2) cs
  let cs ← takeMark layout ':' cs
  let (second, cs) ← takeNumber (some 2) cs
  let (nanosecond, cs) ← if layout.fraction then takeFraction cs else some (0, cs)
  let cs := if layout.spaced then cs.dropWhile Text.isBlank else cs
  let t : Timestamp := { year, month, day, hour, minute, second, nanosecond }
  if cs.isEmpty && t.onCalendar then some t else none

/-- The time of a block. -/
def ofBlockTime (s : String) : Option Timestamp := readIn ⟨false, false⟩ s

/-- The time of a stored row. -/
def ofText (s : String) : Option Timestamp := readIn ⟨true, true⟩ s

/-! ## Writing -/

/-- A number with zeros in front of it, up to a width. -/
def padded (width n : Nat) : List Char :=
  let digits := Nat.toDigits 10 n
  List.replicate (width - digits.length) '0' ++ digits

/-- A year: four digits, with a sign outside of 0 to 9999. -/
def yearChars (year : Int) : List Char :=
  if 0 ≤ year ∧ year ≤ 9999 then padded 4 year.toNat
  else if year < 0 then '-' :: padded 4 year.natAbs
  else '+' :: padded 4 year.toNat

/-- The fraction of a second with the fewest digits, by threes, that are exact. -/
def fractionChars (nanosecond : Nat) : List Char :=
  if nanosecond = 0 then []
  else if nanosecond % 1000000 = 0 then '.' :: padded 3 (nanosecond / 1000000)
  else if nanosecond % 1000 = 0 then '.' :: padded 6 (nanosecond / 1000)
  else '.' :: padded 9 nanosecond

/-- The text of a time. -/
def text (t : Timestamp) : String :=
  String.ofList (yearChars t.year ++ '-' :: padded 2 t.month ++ '-' :: padded 2 t.day ++
    'T' :: padded 2 t.hour ++ ':' :: padded 2 t.minute ++ ':' :: padded 2 t.second ++
    fractionChars t.nanosecond)

end Timestamp

end ChainIndex
