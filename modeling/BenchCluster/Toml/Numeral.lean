import BenchCluster.Data.Basic
import BenchCluster.Toml.Text
import BenchCluster.Timestamp

/-! # Numbers, dates and times

A value that begins with a digit or a sign is a date or a time of day if it begins like one, else
a number with a fraction or an exponent, else an integer.
-/

namespace BenchCluster.Toml

/-- Splits off digits of a kind, between which single underscores may stand. -/
def digitRow? (isDigit : Char → Bool) : Nat → List Char → Option (List Char × List Char)
  | 0, _ => none
  | _ + 1, [] => none
  | fuel + 1, c :: rest =>
    if !isDigit c then none
    else match rest with
      | '_' :: rest => (digitRow? isDigit fuel rest).map fun (ds, rest) => (c :: ds, rest)
      | d :: rest =>
        if isDigit d then
          (digitRow? isDigit fuel (d :: rest)).map fun (ds, rest) => (c :: ds, rest)
        else some ([c], d :: rest)
      | [] => some ([c], [])

def decimals? (chars : List Char) : Option (List Char × List Char) :=
  digitRow? Char.isDigit (chars.length + 1) chars

def valueIn (base : Nat) (ds : List Char) : Nat :=
  ds.foldl (fun n c => n * base + (hexValue? c).getD 0) 0

def integer? (n : Int) : Option Data :=
  if -9223372036854775808 ≤ n ∧ n ≤ 9223372036854775807 then some (.integer n) else none

def sign (chars : List Char) : Bool × List Char :=
  match chars with
  | '+' :: rest => (false, rest)
  | '-' :: rest => (true, rest)
  | rest => (false, rest)

/-- Reads the digits in front of a point: no zero in front of other digits. -/
def wholePart? : List Char → Option (List Char × List Char)
  | '0' :: rest => some (['0'], rest)
  | chars => decimals? chars

def exponent? : List Char → Option (Option Int × List Char)
  | c :: rest =>
    if c = 'e' ∨ c = 'E' then do
      let (negative, rest) := sign rest
      let (ds, rest) ← decimals? rest
      let n : Int := valueIn 10 ds
      return (some (if negative then -n else n), rest)
    else some (none, c :: rest)
  | [] => some (none, [])

/-- The number `digits · 10 ^ exponent`. One that is too large is refused, but below zero it stands
for minus infinity. -/
def fractional? (negative : Bool) (digits : Nat) (exponent : Int) : Option Number :=
  Number.ofDecimal? negative digits exponent <|> if negative then some .negInfinity else none

/-- Reads a decimal number: an integer unless it has a fraction or an exponent. -/
def decimal? (chars : List Char) : Option (Data × List Char) := do
  let (negative, rest) := sign chars
  match rest with
  | 'i' :: 'n' :: 'f' :: rest =>
    return (.number (if negative then .negInfinity else .infinity), rest)
  | 'n' :: 'a' :: 'n' :: rest => return (.number .undefined, rest)
  | _ =>
    let (whole, rest) ← wholePart? rest
    let (fraction, rest) ← match rest with
      | '.' :: rest => (decimals? rest).map fun (ds, rest) => (some ds, rest)
      | rest => some (none, rest)
    let (exponent, rest) ← exponent? rest
    if fraction.isNone && exponent.isNone then
      let n : Int := valueIn 10 whole
      let d ← integer? (if negative then -n else n)
      return (d, rest)
    else
      -- All digits are read as one number, and those behind the point lower the exponent.
      let fraction := fraction.getD []
      let x ← fractional? negative (valueIn 10 (whole ++ fraction))
        (exponent.getD 0 - fraction.length)
      return (.number x, rest)

def based? (base : Nat) (isDigit : Char → Bool) (chars : List Char) :
    Option (Data × List Char) := do
  let (ds, rest) ← digitRow? isDigit (chars.length + 1) chars
  let d ← integer? (valueIn base ds)
  return (d, rest)

/-! ## Dates and times -/

def fixed? (width low high : Nat) (chars : List Char) : Option (Nat × List Char) :=
  let ds := chars.take width
  let n := valueIn 10 ds
  if ds.length = width && ds.all Char.isDigit && low ≤ n && n ≤ high then
    some (n, chars.drop width)
  else none

def expect? (c : Char) : List Char → Option (List Char)
  | x :: rest => if x = c then some rest else none
  | [] => none

/-- The written form of a fraction of a second: nine digits count, and zeros at their end do not. -/
def fractionText (ds : List Char) : String :=
  let shown := ((ds.take 9).reverse.dropWhile (· = '0')).reverse
  if shown.isEmpty then "" else "." ++ String.ofList shown

def afterHour? (hour : Nat) (chars : List Char) : Option (String × List Char) := do
  let rest ← expect? ':' chars
  let (minute, rest) ← fixed? 2 0 59 rest
  let rest ← expect? ':' rest
  let (second, rest) ← fixed? 2 0 60 rest
  let whole := s!"{Text.padded 2 hour}:{Text.padded 2 minute}:{Text.padded 2 second}"
  match rest with
  | '.' :: rest =>
    let ds := rest.takeWhile Char.isDigit
    if ds.isEmpty then none else some (whole ++ fractionText ds, rest.drop ds.length)
  | rest => some (whole, rest)

def offset? (chars : List Char) : Option (String × List Char) :=
  match chars with
  | 'Z' :: rest => some ("Z", rest)
  | 'z' :: rest => some ("Z", rest)
  | c :: rest =>
    if c = '+' ∨ c = '-' then
      match fixed? 2 0 23 rest with
      | some (hours, ':' :: rest) => do
        let (minutes, rest) ← fixed? 2 0 59 rest
        let sign := if c = '-' ∧ (hours ≠ 0 ∨ minutes ≠ 0) then "-" else "+"
        return (s!"{sign}{Text.padded 2 hours}:{Text.padded 2 minutes}", rest)
      | _ => some ("", chars)
    else some ("", chars)
  | [] => some ("", chars)

/-- Whether the text begins like a date: four digits and a hyphen. -/
def startsDate (chars : List Char) : Bool :=
  (chars.take 4).length = 4 && (chars.take 4).all Char.isDigit && (chars.drop 4).head? = some '-'

def startsTime (chars : List Char) : Bool :=
  (fixed? 2 0 23 chars).isSome && (chars.drop 2).head? = some ':'

def date? (chars : List Char) : Option (String × List Char) := do
  let (year, rest) ← fixed? 4 0 9999 chars
  let rest ← expect? '-' rest
  let (month, rest) ← fixed? 2 1 12 rest
  let rest ← expect? '-' rest
  let (day, rest) ← fixed? 2 1 (daysInMonth year month) rest
  let date := s!"{Text.padded 4 year}-{Text.padded 2 month}-{Text.padded 2 day}"
  match rest with
  | c :: after =>
    if c = 'T' || c = 't' || c = ' ' then
      match fixed? 2 0 23 after with
      | some (hour, ':' :: behind) => do
        let (time, rest) ← afterHour? hour (':' :: behind)
        let (offset, rest) ← offset? rest
        return (date ++ "T" ++ time ++ offset, rest)
      | _ => return (date, rest)
    else return (date, rest)
  | [] => return (date, rest)

def moment? (chars : List Char) : Option (Data × List Char) := do
  let (text, rest) ←
    if startsDate chars then date? chars
    else do
      let (hour, rest) ← fixed? 2 0 23 chars
      afterHour? hour rest
  return (.moment text, rest)

def numeral? (chars : List Char) : Option (Data × List Char) :=
  if startsDate chars || startsTime chars then moment? chars
  else match chars with
    | '0' :: 'x' :: rest => based? 16 (fun c => (hexValue? c).isSome) rest
    | '0' :: 'o' :: rest => based? 8 (fun c => '0' ≤ c && c ≤ '7') rest
    | '0' :: 'b' :: rest => based? 2 (fun c => c = '0' || c = '1') rest
    | _ => decimal? chars

end BenchCluster.Toml
