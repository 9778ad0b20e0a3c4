import Qualification.Text.Blank
/-!
# Instants

An instant counts seconds from the beginning of 1970 in UTC, with nanoseconds. A leap second is the
second before it with at least `10 ^ 9` nanoseconds.

* `Instant.render`: the RFC 3339 text in UTC, with 0, 3, 6 or 9 digits of the second's fraction;
* `Instant.parse?`: reads RFC 3339 text with some freedom: `t` or a blank between date and time,
  fewer digits, blanks between the parts, a leap second, an offset without a colon;
* `Instant.describe`: date, time and zone with blanks between them.
-/

namespace Qualification

/-- A point in time. -/
structure Instant where
  seconds : Int
  nanos : Nat
  deriving DecidableEq, Repr, Inhabited

namespace Instant

/-- Whether an instant lies before another one. -/
def before (a b : Instant) : Bool :=
  a.seconds < b.seconds || (a.seconds == b.seconds && a.nanos < b.nanos)

/-! ## The calendar -/

def isLeapYear (year : Int) : Bool :=
  year % 4 == 0 && (year % 100 != 0 || year % 400 == 0)

def daysInMonth (year : Int) (month : Nat) : Nat :=
  if month == 2 then (if isLeapYear year then 29 else 28)
  else if month == 4 || month == 6 || month == 9 || month == 11 then 30
  else 31

/-- The day number of a date; the first of January 1970 is day 0. Years begin in March here, so that
a leap day is the last day of its year. -/
def dayNumber (year : Int) (month day : Nat) : Int :=
  let y := if month ≤ 2 then year - 1 else year
  let era := Int.fdiv y 400
  let yearOfEra := y - era * 400
  let monthFromMarch : Int := (month + 9) % 12
  let dayOfYear : Int := (153 * monthFromMarch + 2) / 5 + day - 1
  let dayOfEra := yearOfEra * 365 + yearOfEra / 4 - yearOfEra / 100 + dayOfYear
  era * 146097 + dayOfEra - 719468

/-- The date of a day number. -/
def dateOfDay (number : Int) : Int × Nat × Nat :=
  let z := number + 719468
  let era := Int.fdiv z 146097
  let dayOfEra := z - era * 146097
  let yearOfEra := (dayOfEra - dayOfEra / 1460 + dayOfEra / 36524 - dayOfEra / 146096) / 365
  let dayOfYear := dayOfEra - (365 * yearOfEra + yearOfEra / 4 - yearOfEra / 100)
  let monthFromMarch := (5 * dayOfYear + 2) / 153
  let day := dayOfYear - (153 * monthFromMarch + 2) / 5 + 1
  let month := if monthFromMarch < 10 then monthFromMarch + 3 else monthFromMarch - 9
  let year := yearOfEra + era * 400 + (if month ≤ 2 then 1 else 0)
  (year, month.toNat, day.toNat)

/-! ## Writing -/

/-- A number in at least `width` decimal digits. -/
def padded (width n : Nat) : List Char :=
  let ds := Nat.toDigits 10 n
  List.replicate (width - ds.length) '0' ++ ds

/-- A year: four digits, or a sign and at least four outside of 0 to 9999. -/
def yearChars (year : Int) : List Char :=
  if 0 ≤ year ∧ year ≤ 9999 then padded 4 year.toNat
  else (if year < 0 then '-' else '+') :: padded 4 year.natAbs

/-- The fraction of a second in groups of three digits, as many as it needs. -/
def fractionChars (nanos : Nat) : List Char :=
  if nanos = 0 then []
  else if nanos % 1000000 = 0 then '.' :: padded 3 (nanos / 1000000)
  else if nanos % 1000 = 0 then '.' :: padded 6 (nanos / 1000)
  else '.' :: padded 9 nanos

/-- Date and time of day in UTC. -/
def dateChars (t : Instant) : List Char :=
  let (year, month, day) := dateOfDay (Int.fdiv t.seconds 86400)
  yearChars year ++ '-' :: padded 2 month ++ '-' :: padded 2 day

def timeChars (t : Instant) : List Char :=
  let s := (Int.fmod t.seconds 86400).toNat
  let leap := if 1000000000 ≤ t.nanos then 1 else 0
  padded 2 (s / 3600) ++ ':' :: padded 2 (s / 60 % 60) ++ ':' :: padded 2 (s % 60 + leap) ++
    fractionChars (t.nanos % 1000000000)

/-- The RFC 3339 text. -/
def renderChars (t : Instant) : List Char := t.dateChars ++ 'T' :: t.timeChars ++ ['Z']

/-- The RFC 3339 text. -/
def render (t : Instant) : String := String.ofList t.renderChars

/-- The text for people. -/
def describe (t : Instant) : String :=
  String.ofList (t.dateChars ++ ' ' :: t.timeChars ++ " UTC".toList)

/-! ## Reading -/

open Text (dropBlanks isBlank)

/-- At most `width` digits, at least one. -/
def digits? (width : Nat) (cs : List Char) : Option (Nat × List Char) :=
  let ds := (cs.take width).takeWhile Char.isDigit
  if ds.isEmpty then none
  else some (ds.foldl (fun n d => n * 10 + (d.toNat - 48)) 0, cs.drop ds.length)

/-- A number of at most `width` digits within bounds, after blanks. -/
def part? (width low high : Nat) (cs : List Char) : Option (Nat × List Char) := do
  let (n, rest) ← digits? width (dropBlanks cs)
  if low ≤ n ∧ n ≤ high then pure (n, rest) else none

/-- A character after blanks. -/
def mark? (c : Char) (cs : List Char) : Option (List Char) :=
  match dropBlanks cs with
  | x :: rest => if x = c then some rest else none
  | [] => none

/-- A year: at most four digits, or any number of them after a sign. -/
def year? (cs : List Char) : Option (Int × List Char) :=
  match dropBlanks cs with
  | '-' :: rest => (digits? rest.length rest).map fun (n, r) => (-(n : Int), r)
  | '+' :: rest => (digits? rest.length rest).map fun (n, r) => ((n : Int), r)
  | rest => (digits? 4 rest).map fun (n, r) => ((n : Int), r)

/-- A fraction of a second in nanoseconds; digits after the ninth are skipped. -/
def fraction? : List Char → Option (Nat × List Char)
  | '.' :: rest =>
    let ds := rest.takeWhile Char.isDigit
    if ds.isEmpty then none
    else
      let nine := ds.take 9
      let n := nine.foldl (fun n d => n * 10 + (d.toNat - 48)) 0
      some (n * Nat.pow 10 (9 - nine.length), rest.drop ds.length)
  | rest => some (0, rest)

/-- Two digits. -/
def twoDigits? : List Char → Option (Nat × List Char)
  | a :: b :: rest =>
    if a.isDigit && b.isDigit then some ((a.toNat - 48) * 10 + (b.toNat - 48), rest) else none
  | _ => none

/-- An offset from UTC in seconds: `Z`, `UTC`, or a sign, hours and minutes. -/
def offset? (cs : List Char) : Option (Int × List Char) :=
  match cs with
  | 'Z' :: rest | 'z' :: rest => some (0, rest)
  | u :: t :: c :: rest =>
    if u.toUpper == 'U' && t.toUpper == 'T' && c.toUpper == 'C' then some (0, rest)
    else if u == '+' || u == '-' || u == '−' then do
      let (hours, rest) ← twoDigits? (t :: c :: rest)
      let (minutes, rest) ← twoDigits? (rest.dropWhile fun c => c == ':' || isBlank c)
      if minutes < 60 then
        let seconds : Int := hours * 3600 + minutes * 60
        pure (if u == '+' then seconds else -seconds, rest)
      else none
    else none
  | _ => none

/-- The years that have dates. -/
def yearInRange (year : Int) : Bool := -262143 ≤ year && year ≤ 262142

/-- Reads an instant. -/
def parse? (s : String) : Option Instant := do
  let (year, cs) ← year? s.toList
  let (month, cs) ← part? 2 1 12 (← mark? '-' cs)
  let (day, cs) ← part? 2 1 31 (← mark? '-' cs)
  let cs ← match cs with
    | 't' :: r | 'T' :: r | ' ' :: r => some r
    | _ => none
  let (hour, cs) ← part? 2 0 23 cs
  let (minute, cs) ← part? 2 0 59 (← mark? ':' cs)
  let (second, cs) ← part? 2 0 60 (← mark? ':' cs)
  let (nanos, cs) ← fraction? cs
  let (offset, cs) ← offset? (dropBlanks cs)
  if !(dropBlanks cs).isEmpty || !yearInRange year || daysInMonth year month < day ||
      !(-86400 < offset && offset < 86400) then none
  else
    let leap := second == 60
    let ofDay : Int := hour * 3600 + minute * 60 + (if leap then 59 else second)
    let seconds := dayNumber year month day * 86400 + ofDay - offset
    if yearInRange (dateOfDay (Int.fdiv seconds 86400)).1 then
      pure ⟨seconds, if leap then nanos + 1000000000 else nanos⟩
    else none

/-- The instant some milliseconds later. -/
def addMillis (t : Instant) (ms : Nat) : Instant :=
  let total := t.nanos + ms % 1000 * 1000000
  ⟨t.seconds + (ms / 1000 : Nat) + (total / 1000000000 : Nat), total % 1000000000⟩

end Instant

end Qualification
