/-! # Arithmetic in shell scripts

Expressions over whole numbers and variables. Comparisons answer one or zero, and a division by
zero has no value.
-/

namespace BenchCluster.Rehearsal.Shell

inductive Token
  | number (n : Int)
  | name (s : String)
  | sign (s : String)
  deriving DecidableEq, Repr

namespace Token

def longSigns : List String := ["==", "!=", "<=", ">=", "&&", "||"]

def readAll : Nat → List Char → List Token
  | 0, _ => []
  | _ + 1, [] => []
  | fuel + 1, c :: rest =>
    if c = ' ' || c = '\t' || c = '\n' then readAll fuel rest
    else if c.isDigit then
      let digits := (c :: rest).takeWhile Char.isDigit
      let n := (String.ofList digits).toInt?.getD 0
      .number n :: readAll fuel ((c :: rest).drop digits.length)
    else if c.isAlpha || c = '_' then
      let name := (c :: rest).takeWhile fun c => c.isAlphanum || c = '_'
      .name (String.ofList name) :: readAll fuel ((c :: rest).drop name.length)
    else
      let two := String.ofList ((c :: rest).take 2)
      if longSigns.contains two then .sign two :: readAll fuel (rest.drop 1)
      else .sign (String.ofList [c]) :: readAll fuel rest

end Token

/-- How closely a sign ties its operands. -/
def tightness? : String → Option Nat
  | "||" => some 1
  | "&&" => some 2
  | "==" => some 3
  | "!=" => some 3
  | "<" => some 4
  | "<=" => some 4
  | ">" => some 4
  | ">=" => some 4
  | "+" => some 5
  | "-" => some 5
  | "*" => some 6
  | "/" => some 6
  | "%" => some 6
  | _ => none

def truth (b : Bool) : Int := if b then 1 else 0

/-- Joins two values. Quotients are rounded towards zero. -/
def combine? (sign : String) (a b : Int) : Option Int :=
  match sign with
  | "||" => some (truth (a ≠ 0 || b ≠ 0))
  | "&&" => some (truth (a ≠ 0 && b ≠ 0))
  | "==" => some (truth (a = b))
  | "!=" => some (truth (a ≠ b))
  | "<" => some (truth (a < b))
  | "<=" => some (truth (a ≤ b))
  | ">" => some (truth (a > b))
  | ">=" => some (truth (a ≥ b))
  | "+" => some (a + b)
  | "-" => some (a - b)
  | "*" => some (a * b)
  | "/" => if b = 0 then none else some (Int.tdiv a b)
  | "%" => if b = 0 then none else some (Int.tmod a b)
  | _ => none

mutual

/-- The value of a number, a variable, or an expression in brackets or behind a sign. -/
def operand? (value : String → Int) : Nat → List Token → Option (Int × List Token)
  | 0, _ => none
  | _, [] => none
  | fuel + 1, token :: rest =>
    match token with
    | .number n => some (n, rest)
    | .name s => some (value s, rest)
    | .sign s =>
      if s = "(" then
        match chain? value fuel 1 rest with
        | some (n, closing :: rest) => if closing = .sign ")" then some (n, rest) else none
        | _ => none
      else do
        let (n, rest) ← operand? value fuel rest
        if s = "-" then return (-n, rest)
        else if s = "+" then return (n, rest)
        else if s = "!" then return (truth (n = 0), rest)
        else none

/-- The value of operands joined by signs that tie at least as closely as asked for. -/
def chain? (value : String → Int) : Nat → Nat → List Token → Option (Int × List Token)
  | 0, _, _ => none
  | fuel + 1, least, tokens => do
    let (n, rest) ← operand? value fuel tokens
    more? value fuel least n rest

def more? (value : String → Int) : Nat → Nat → Int → List Token → Option (Int × List Token)
  | 0, _, _, _ => none
  | fuel + 1, least, n, tokens =>
    match tokens with
    | .sign s :: rest =>
      match tightness? s with
      | some tight =>
        if tight < least then some (n, tokens)
        else do
          let (right, rest) ← chain? value fuel (tight + 1) rest
          let joined ← combine? s n right
          more? value fuel least joined rest
      | none => some (n, tokens)
    | _ => some (n, tokens)

end

def evaluate? (value : String → Int) (source : String) : Option Int :=
  let tokens := Token.readAll (source.toList.length + 1) source.toList
  match chain? value (4 * tokens.length + 4) 1 tokens with
  | some (n, []) => some n
  | _ => none

end BenchCluster.Rehearsal.Shell
