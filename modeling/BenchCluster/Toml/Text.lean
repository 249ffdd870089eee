import BenchCluster.Toml.Blank

/-! # Strings and keys

The four kinds of quoted strings, and keys of several parts.
-/

namespace BenchCluster.Toml

def hexValue? (c : Char) : Option Nat :=
  if '0' ≤ c ∧ c ≤ '9' then some (c.toNat - '0'.toNat)
  else if 'a' ≤ c ∧ c ≤ 'f' then some (c.toNat - 'a'.toNat + 10)
  else if 'A' ≤ c ∧ c ≤ 'F' then some (c.toNat - 'A'.toNat + 10)
  else none

def charOfHex? (digits : List Char) : Option Char := do
  let values ← digits.mapM hexValue?
  let n := values.foldl (fun n v => n * 16 + v) 0
  if h : n.isValidChar then some (Char.ofNatAux n h) else none

def escape? : List Char → Option (Char × List Char)
  | 'b' :: rest => some ('\x08', rest)
  | 't' :: rest => some ('\t', rest)
  | 'n' :: rest => some ('\n', rest)
  | 'f' :: rest => some ('\x0c', rest)
  | 'r' :: rest => some ('\r', rest)
  | '"' :: rest => some ('"', rest)
  | '\\' :: rest => some ('\\', rest)
  | 'u' :: a :: b :: c :: d :: rest => (charOfHex? [a, b, c, d]).map fun x => (x, rest)
  | 'U' :: a :: b :: c :: d :: e :: f :: g :: h :: rest =>
    (charOfHex? [a, b, c, d, e, f, g, h]).map fun x => (x, rest)
  | _ => none

def basicBody : Nat → List Char → List Char → Option (List Char × List Char)
  | 0, _, _ => none
  | _ + 1, _, [] => none
  | _ + 1, acc, '"' :: rest => some (acc.reverse, rest)
  | fuel + 1, acc, '\\' :: rest => do
    let (c, rest) ← escape? rest
    basicBody fuel (c :: acc) rest
  | fuel + 1, acc, c :: rest => if isPrintable c then basicBody fuel (c :: acc) rest else none

def literalBody (chars : List Char) : Option (List Char × List Char) :=
  let body := chars.takeWhile fun c => isPrintable c && c ≠ '\''
  match chars.drop body.length with
  | '\'' :: rest => some (body, rest)
  | _ => none

/-- Counts the quotes in front, of which at most five matter. -/
def quotesInFront (quote : Char) (chars : List Char) : Nat :=
  ((chars.take 5).takeWhile (· = quote)).length

/-- Reads a string over several lines behind its opening quotes. One or two quotes may stand
anywhere in it, and a line end is kept as a single character. -/
def longBody (quote : Char) : Nat → List Char → List Char → Option (List Char × List Char)
  | 0, _, _ => none
  | _ + 1, _, [] => none
  | fuel + 1, acc, c :: rest =>
    if c = quote then
      let quotes := quotesInFront quote (c :: rest)
      if quotes ≥ 3 then
        -- Of more than three quotes the last three end the string.
        some ((List.replicate (quotes - 3) quote ++ acc).reverse, (c :: rest).drop quotes)
      else longBody quote fuel (c :: acc) rest
    else if c = '\\' && quote = '"' then
      match newline? (skipSpaces rest) with
      | some after => longBody quote fuel acc (skipWhite after)
      | none => do
        let (x, rest) ← escape? rest
        longBody quote fuel (x :: acc) rest
    else if isPrintable c then longBody quote fuel (c :: acc) rest
    else do
      let rest ← newline? (c :: rest)
      longBody quote fuel ('\n' :: acc) rest
where
  /-- Drops spaces, tabs and line ends. -/
  skipWhite : List Char → List Char
    | '\r' :: '\n' :: rest => skipWhite rest
    | c :: rest => if c = ' ' ∨ c = '\t' ∨ c = '\n' then skipWhite rest else c :: rest
    | [] => []

/-- Drops the line end that may follow the opening quotes of a long string. -/
def skipFirstLine (chars : List Char) : List Char := (newline? chars).getD chars

def string? (chars : List Char) : Option (String × List Char) :=
  let fuel := chars.length + 1
  let read := match chars with
    | '"' :: '"' :: '"' :: rest => longBody '"' fuel [] (skipFirstLine rest)
    | '\'' :: '\'' :: '\'' :: rest => longBody '\'' fuel [] (skipFirstLine rest)
    | '"' :: rest => basicBody fuel [] rest
    | '\'' :: rest => literalBody rest
    | _ => none
  read.map fun (body, rest) => (String.ofList body, rest)

def isBare (c : Char) : Bool := c.isAlphanum || c = '_' || c = '-'

def keyPart? (chars : List Char) : Option (String × List Char) :=
  match chars with
  | '"' :: rest =>
    (basicBody (chars.length + 1) [] rest).map fun (s, rest) => (String.ofList s, rest)
  | '\'' :: rest => (literalBody rest).map fun (s, rest) => (String.ofList s, rest)
  | _ =>
    let bare := chars.takeWhile isBare
    if bare.isEmpty then none else some (String.ofList bare, chars.drop bare.length)

def keyParts? : Nat → List Char → Option (List String × List Char)
  | 0, _ => none
  | fuel + 1, chars => do
    let (part, rest) ← keyPart? (skipSpaces chars)
    match skipSpaces rest with
    | '.' :: rest =>
      let (parts, rest) ← keyParts? fuel rest
      return (part :: parts, rest)
    | rest => return ([part], rest)

/-- The number of parts that a key must stay below, and likewise the depth of a value. -/
def depthLimit : Nat := 80

def key? (chars : List Char) : Option (List String × List Char) := do
  let (parts, rest) ← keyParts? (chars.length + 1) chars
  if parts.length < depthLimit then some (parts, rest) else none

end BenchCluster.Toml
