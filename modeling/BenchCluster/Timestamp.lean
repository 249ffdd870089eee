import BenchCluster.Text.Split
import BenchCluster.Text.Numeral

/-! # Points in time

A point in time as a date and a time of day in UTC, with nanoseconds. `read?` accepts the usual
spellings with any offset and `toText` writes the shortest of them with a whole number of
thousands in its fraction.
-/

namespace BenchCluster

def isLeapYear (year : Int) : Bool :=
  year % 4 = 0 && (year % 100 ≠ 0 || year % 400 = 0)

def daysInMonth (year : Int) (month : Nat) : Nat :=
  if month = 2 then (if isLeapYear year then 29 else 28)
  else if month = 4 ∨ month = 6 ∨ month = 9 ∨ month = 11 then 30
  else 31

def firstYear : Int := -262143

def lastYear : Int := 262142

/-- The fields of a date and a time of day. A leap second may follow any minute. -/
structure CivilTime where
  year : Int
  month : Nat
  day : Nat
  hour : Nat
  minute : Nat
  second : Nat
  nanosecond : Nat
  deriving DecidableEq, Repr

namespace CivilTime

def isValid (t : CivilTime) : Bool :=
  decide (firstYear ≤ t.year ∧ t.year ≤ lastYear ∧ 1 ≤ t.month ∧ t.month ≤ 12 ∧
    1 ≤ t.day ∧ t.day ≤ daysInMonth t.year t.month ∧
    t.hour < 24 ∧ t.minute < 60 ∧ t.second ≤ 60 ∧ t.nanosecond < 1000000000)

def nextDay (t : CivilTime) : CivilTime :=
  if t.day < daysInMonth t.year t.month then { t with day := t.day + 1 }
  else if t.month < 12 then { t with month := t.month + 1, day := 1 }
  else { t with year := t.year + 1, month := 1, day := 1 }

def previousDay (t : CivilTime) : CivilTime :=
  if 1 < t.day then { t with day := t.day - 1 }
  else if 1 < t.month then
    { t with month := t.month - 1, day := daysInMonth t.year (t.month - 1) }
  else { t with year := t.year - 1, month := 12, day := 31 }

def minutesEarlier (t : CivilTime) (minutes : Int) : CivilTime :=
  let total : Int := t.hour * 60 + t.minute - minutes
  let wrapped := (total % 1440).toNat
  let moved := { t with hour := wrapped / 60, minute := wrapped % 60 }
  if total < 0 then moved.previousDay else if total ≥ 1440 then moved.nextDay else moved

/-- The time some seconds after the start of the year 1970. Days are counted in years that begin
with March, and those in cycles of 400 years. -/
def ofSeconds (seconds : Int) (nanosecond : Nat) : CivilTime :=
  -- The days since the first of March of the year 0.
  let days := seconds / 86400 + 719468
  let clock := (seconds % 86400).toNat
  let dayOfCycle := (days % 146097).toNat
  -- There is a leap day in every fourth year, but not in the 100th, 200th and 300th of a cycle.
  let yearOfCycle :=
    (dayOfCycle - dayOfCycle / 1460 + dayOfCycle / 36524 - dayOfCycle / 146096) / 365
  let dayOfYear := dayOfCycle - (365 * yearOfCycle + yearOfCycle / 4 - yearOfCycle / 100)
  let monthFromMarch := (5 * dayOfYear + 2) / 153
  let month := if monthFromMarch < 10 then monthFromMarch + 3 else monthFromMarch - 9
  { year := yearOfCycle + days / 146097 * 400 + (if month ≤ 2 then 1 else 0)
    month := month
    day := dayOfYear - (153 * monthFromMarch + 2) / 5 + 1
    hour := clock / 3600
    minute := clock / 60 % 60
    second := clock % 60
    nanosecond := nanosecond }

example : ofSeconds 0 0 = ⟨1970, 1, 1, 0, 0, 0, 0⟩ := by decide
example : ofSeconds 951868799 5 = ⟨2000, 2, 29, 23, 59, 59, 5⟩ := by decide
example : ofSeconds (-1) 0 = ⟨1969, 12, 31, 23, 59, 59, 0⟩ := by decide

end CivilTime

/-- A point in time, in UTC. -/
structure Timestamp where
  civil : CivilTime
  valid : civil.isValid = true
  deriving DecidableEq

namespace Timestamp

instance : Repr Timestamp := ⟨fun t n => reprPrec t.civil n⟩

def ofCivil? (t : CivilTime) : Option Timestamp :=
  if h : t.isValid = true then some ⟨t, h⟩ else none

def epoch : Timestamp := ⟨⟨1970, 1, 1, 0, 0, 0, 0⟩, by decide⟩

instance : Inhabited Timestamp := ⟨epoch⟩

/-- The year in four digits, or with a sign where these do not suffice. -/
def yearText (year : Int) : String :=
  if 0 ≤ year ∧ year ≤ 9999 then Text.padded 4 year.toNat
  else (if year < 0 then "-" else "+") ++ Text.padded 4 year.natAbs

/-- The fraction of a second, in no, three, six or nine digits. -/
def fractionText (n : Nat) : String :=
  if n = 0 then ""
  else if n % 1000000 = 0 then "." ++ Text.padded 3 (n / 1000000)
  else if n % 1000 = 0 then "." ++ Text.padded 6 (n / 1000)
  else "." ++ Text.padded 9 n

def toText (t : Timestamp) : String :=
  let c := t.civil
  yearText c.year ++ "-" ++ Text.padded 2 c.month ++ "-" ++ Text.padded 2 c.day ++ "T" ++
    Text.padded 2 c.hour ++ ":" ++ Text.padded 2 c.minute ++ ":" ++ Text.padded 2 c.second ++
    fractionText c.nanosecond ++ "Z"

/-! ## Reading -/

def skipBlanks (chars : List Char) : List Char := chars.dropWhile Text.isBlank

def number? (width : Option Nat) (chars : List Char) : Option (Nat × List Char) :=
  let digits := chars.takeWhile Char.isDigit
  let digits := match width with | some n => digits.take n | none => digits
  if digits.isEmpty then none
  else some (Text.digitsValue digits, chars.drop digits.length)

def part? (chars : List Char) : Option (Nat × List Char) := number? (some 2) (skipBlanks chars)

/-- Reads a year behind blanks; with a sign it may have any number of digits. -/
def year? (chars : List Char) : Option (Int × List Char) :=
  match skipBlanks chars with
  | '-' :: rest => (number? none rest).map fun (n, rest) => (-(n : Int), rest)
  | '+' :: rest => (number? none rest).map fun (n, rest) => ((n : Int), rest)
  | rest => (number? (some 4) rest).map fun (n, rest) => ((n : Int), rest)

def mark? (c : Char) (chars : List Char) : Option (List Char) :=
  match skipBlanks chars with
  | x :: rest => if x = c then some rest else none
  | [] => none

/-- Reads the fraction of a second, of which the first nine digits count. -/
def fraction? : List Char → Option (Nat × List Char)
  | '.' :: rest =>
    let digits := rest.takeWhile Char.isDigit
    if digits.isEmpty then none
    else
      let kept := digits.take 9
      some (Text.digitsValue kept * Nat.pow 10 (9 - kept.length), rest.drop digits.length)
  | rest => some (0, rest)

def twoDigits? : List Char → Option (Nat × List Char)
  | a :: b :: rest =>
    if a.isDigit && b.isDigit then some (Text.digitsValue [a, b], rest) else none
  | _ => none

def offsetSize? (chars : List Char) : Option (Nat × List Char) := do
  let (hours, rest) ← twoDigits? chars
  let (minutes, rest) ← twoDigits? (rest.dropWhile fun c => c = ':' || Text.isBlank c)
  if hours < 24 ∧ minutes < 60 then some (hours * 60 + minutes, rest) else none

def offset? (chars : List Char) : Option (Int × List Char) :=
  match chars with
  | a :: b :: c :: rest =>
    if a.toLower = 'u' ∧ b.toLower = 't' ∧ c.toLower = 'c' then some (0, rest) else signed chars
  | _ => signed chars
where
  /-- Reads an offset written with a sign or as the letter for none. -/
  signed : List Char → Option (Int × List Char)
    | 'Z' :: rest => some (0, rest)
    | 'z' :: rest => some (0, rest)
    | '+' :: rest => (offsetSize? rest).map fun (n, rest) => ((n : Int), rest)
    | '-' :: rest => (offsetSize? rest).map fun (n, rest) => (-(n : Int), rest)
    | '−' :: rest => (offsetSize? rest).map fun (n, rest) => (-(n : Int), rest)
    | _ => none

/-- Reads a point in time and converts it to UTC. -/
def read? (text : String) : Option Timestamp := do
  let (year, rest) ← year? text.toList
  let (month, rest) ← part? (← mark? '-' rest)
  let (day, rest) ← part? (← mark? '-' rest)
  let rest ← match rest with
    | c :: rest => if c = 'T' ∨ c = 't' ∨ c = ' ' then some rest else none
    | [] => none
  let (hour, rest) ← part? rest
  let (minute, rest) ← part? (← mark? ':' rest)
  let (second, rest) ← part? (← mark? ':' rest)
  let (nanosecond, rest) ← fraction? rest
  let (offset, rest) ← offset? (skipBlanks rest)
  if !(skipBlanks rest).isEmpty then none
  else
    let here ← ofCivil? ⟨year, month, day, hour, minute, second, nanosecond⟩
    ofCivil? (here.civil.minutesEarlier offset)

end Timestamp

end BenchCluster
