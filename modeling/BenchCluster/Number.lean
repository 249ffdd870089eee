/-! # Numbers with a fraction

Configuration files write numbers as decimals, which are kept exactly, or as one of the words for
infinity and for a value that is no number. `ofDecimal?` refuses what is too large to be stored
as a double.
-/

namespace BenchCluster

/-- A number as a configuration file states it. -/
inductive Number
  | finite (value : Rat)
  | infinity
  | negInfinity
  | undefined
  deriving DecidableEq, Repr, Inhabited

namespace Number

def ofInt (n : Int) : Number := .finite n

/-- The smallest magnitude that is too large for a double. -/
def magnitudeLimit : Nat := Nat.pow 2 1024 - Nat.pow 2 970

/-- The number `digits · 10 ^ exponent`, unless it is too large for a double. -/
def ofDecimal? (negative : Bool) (digits : Nat) (exponent : Int) : Option Number :=
  if digits = 0 then some (.finite 0)
  else
    let length : Int := (Nat.toDigits 10 digits).length
    if exponent + length > 310 then none
    else if exponent + length < -330 then some (.finite 0)
    else
      let value : Rat :=
        if exponent ≥ 0 then ((digits * Nat.pow 10 exponent.toNat : Nat) : Rat)
        else mkRat digits (Nat.pow 10 (-exponent).toNat)
      if value ≥ (magnitudeLimit : Rat) then none
      else some (.finite (if negative then -value else value))

/-- The decimal text of a number, exact when it has a finite decimal expansion. -/
def toText : Number → String
  | .finite q =>
    if q.den = 1 then toString q.num
    else
      let places := Nat.log2 q.den + 1
      let unit := Nat.pow 10 places
      let scaled := (q.num.natAbs * unit) / q.den
      let digits := Nat.toDigits 10 (scaled % unit)
      let fraction := List.replicate (places - digits.length) '0' ++ digits
      let shown := (fraction.reverse.dropWhile (· = '0')).reverse
      let sign := if q.num < 0 then "-" else ""
      sign ++ toString (scaled / unit) ++ "." ++ String.ofList shown
  | _ => "null"

end Number

end BenchCluster
