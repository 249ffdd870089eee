/-! # Decimal numerals

Numerals padded with zeros, and the reading of a bounded natural number with an optional sign.
-/

namespace BenchCluster.Text

/-- A natural number in at least the given number of decimal digits. -/
def padded (width n : Nat) : String :=
  let digits := (Nat.toDigits 10 n)
  String.ofList (List.replicate (width - digits.length) '0' ++ digits)

def digitValue (c : Char) : Nat := c.toNat - '0'.toNat

def digitsValue (digits : List Char) : Nat :=
  digits.foldl (fun n c => n * 10 + digitValue c) 0

/-- The ways a numeral can fail to name a number below a bound. -/
inductive NumeralError
  | empty
  | invalidDigit
  | overflow
  deriving DecidableEq, Repr

def NumeralError.message : NumeralError → String
  | .empty => "cannot parse integer from empty string"
  | .invalidDigit => "invalid digit found in string"
  | .overflow => "number too large to fit in target type"

/-- Reads the digits of a number that must stay below the bound; the first fault from the left
counts. -/
def readDigits (bound : Nat) : Nat → List Char → Except NumeralError Nat
  | n, [] => .ok n
  | n, c :: rest =>
    if !c.isDigit then .error .invalidDigit
    else if n * 10 + digitValue c ≥ bound then
      .error .overflow
    else
      readDigits bound (n * 10 + digitValue c) rest

/-- Reads a natural number below a bound; a plus sign may stand in front of the digits. -/
def readNat (bound : Nat) (text : String) : Except NumeralError Nat :=
  match text.toList with
  | [] => .error .empty
  | ['+'] => .error .invalidDigit
  | ['-'] => .error .invalidDigit
  | '+' :: digits => readDigits bound 0 digits
  | digits => readDigits bound 0 digits

end BenchCluster.Text
