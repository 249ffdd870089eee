import BenchCluster.Data.Basic

/-! # Reading JSON

`read?` reads a whole text. Strings with half of a surrogate pair and numbers too large for a
double are unusable values: they may stand where nothing asks for them.
-/

namespace BenchCluster.Json

def skipBlanks : List Char → List Char
  | [] => []
  | c :: rest =>
    if c = ' ' ∨ c = '\n' ∨ c = '\t' ∨ c = '\r' then skipBlanks rest else c :: rest

def hexValue? (c : Char) : Option Nat :=
  if '0' ≤ c ∧ c ≤ '9' then some (c.toNat - '0'.toNat)
  else if 'a' ≤ c ∧ c ≤ 'f' then some (c.toNat - 'a'.toNat + 10)
  else if 'A' ≤ c ∧ c ≤ 'F' then some (c.toNat - 'A'.toNat + 10)
  else none

/-- The 16-bit unit that four hexadecimal digits spell. -/
def unit? (a b c d : Char) : Option Nat := do
  let a ← hexValue? a
  let b ← hexValue? b
  let c ← hexValue? c
  let d ← hexValue? d
  return ((a * 16 + b) * 16 + c) * 16 + d

def isHighHalf (n : Nat) : Bool := 0xd800 ≤ n && n ≤ 0xdbff

def isLowHalf (n : Nat) : Bool := 0xdc00 ≤ n && n ≤ 0xdfff

def joinHalves (high low : Nat) : Char :=
  Char.ofNat (0x10000 + (high - 0xd800) * 0x400 + (low - 0xdc00))

def escaped? (c : Char) : Option Char :=
  match c with
  | '"' => some '"'
  | '\\' => some '\\'
  | '/' => some '/'
  | 'b' => some '\x08'
  | 'f' => some '\x0c'
  | 'n' => some '\n'
  | 'r' => some '\r'
  | 't' => some '\t'
  | _ => none

/-- Reads a string behind its opening quote. The characters so far are held in reverse, or
forgotten once half of a surrogate pair has been met. -/
def stringBody (acc : Option (List Char)) :
    List Char → Option (Option (List Char) × List Char)
  | [] => none
  | '"' :: rest => some (acc.map List.reverse, rest)
  | '\\' :: 'u' :: a :: b :: c :: d :: '\\' :: 'u' :: e :: f :: g :: h :: rest =>
    match unit? a b c d, unit? e f g h with
    | some n, some m =>
      if isHighHalf n then
        stringBody (if isLowHalf m then acc.map (joinHalves n m :: ·) else none) rest
      else if isLowHalf n then
        -- The second unit is read again, since it may begin a pair of its own.
        stringBody none ('\\' :: 'u' :: e :: f :: g :: h :: rest)
      else
        stringBody (acc.map (Char.ofNat n :: ·)) ('\\' :: 'u' :: e :: f :: g :: h :: rest)
    | _, _ => none
  | '\\' :: 'u' :: a :: b :: c :: d :: rest =>
    match unit? a b c d with
    | some n =>
      stringBody (if isHighHalf n || isLowHalf n then none else acc.map (Char.ofNat n :: ·)) rest
    | none => none
  | '\\' :: c :: rest =>
    match escaped? c with
    | some x => stringBody (acc.map (x :: ·)) rest
    | none => none
  | c :: rest => if c.toNat < 0x20 then none else stringBody (acc.map (c :: ·)) rest
termination_by chars => chars.length

def digits (chars : List Char) : List Char × List Char :=
  (chars.takeWhile Char.isDigit, chars.dropWhile Char.isDigit)

def value (ds : List Char) : Nat := ds.foldl (fun n c => n * 10 + (c.toNat - '0'.toNat)) 0

structure Numeral where
  negative : Bool
  whole : List Char
  fraction : List Char
  exponent : Option Int

def exponent? : List Char → Option (Option Int × List Char)
  | c :: rest =>
    if c = 'e' ∨ c = 'E' then
      let (sign, rest) := match rest with
        | '+' :: rest => ((1 : Int), rest)
        | '-' :: rest => (-1, rest)
        | rest => (1, rest)
      let (ds, rest) := digits rest
      if ds.isEmpty then none else some (some (sign * value ds), rest)
    else some (none, c :: rest)
  | [] => some (none, [])

/-- Reads a number behind its sign: no leading zeros, and digits on both sides of a point. -/
def numeral? (negative : Bool) (chars : List Char) : Option (Numeral × List Char) := do
  let (whole, rest) := digits chars
  if whole.isEmpty ∨ (whole.length > 1 ∧ whole.head? = some '0') then none
  else match rest with
    | '.' :: rest =>
      let (fraction, rest) := digits rest
      if fraction.isEmpty then none
      else
        let (exponent, rest) ← exponent? rest
        return (⟨negative, whole, fraction, exponent⟩, rest)
    | rest =>
      let (exponent, rest) ← exponent? rest
      return (⟨negative, whole, [], exponent⟩, rest)

/-- The value of a number: an integer if it is written as one and fits 64 bits. -/
def Numeral.toData (n : Numeral) : Data :=
  let decimal :=
    match Number.ofDecimal? n.negative (value (n.whole ++ n.fraction))
        (n.exponent.getD 0 - n.fraction.length) with
    | some x => .number x
    | none => .unusable
  if n.fraction.isEmpty ∧ n.exponent.isNone then
    let whole := value n.whole
    if n.negative then
      if whole = 0 ∨ whole > 9223372036854775808 then decimal else .integer (-(whole : Int))
    else if whole < UInt64.size then .integer whole else decimal
  else decimal

/-- A table, unless one of its keys is no text. -/
def tableOf (entries : List (Option String × Data)) : Data :=
  match entries.mapM (fun e => e.1.map fun k => (k, e.2)) with
  | some entries => .table entries
  | none => .unusable

mutual

/-- Reads one value; the bound on the steps is never reached when it is the length of the text. -/
def readValue : Nat → List Char → Option (Data × List Char)
  | 0, _ => none
  | fuel + 1, chars =>
    match skipBlanks chars with
    | '"' :: rest => do
      let (s, rest) ← stringBody (some []) rest
      return (match s with | some cs => .text (String.ofList cs) | none => .unusable, rest)
    | '[' :: rest =>
      match skipBlanks rest with
      | ']' :: rest => some (.list [], rest)
      | rest => do
        let (items, rest) ← readItems fuel rest
        return (.list items, rest)
    | '\x7b' :: rest =>
      match skipBlanks rest with
      | '\x7d' :: rest => some (.table [], rest)
      | rest => do
        let (entries, rest) ← readEntries fuel rest
        return (tableOf entries, rest)
    | 'n' :: 'u' :: 'l' :: 'l' :: rest => some (.null, rest)
    | 't' :: 'r' :: 'u' :: 'e' :: rest => some (.bool true, rest)
    | 'f' :: 'a' :: 'l' :: 's' :: 'e' :: rest => some (.bool false, rest)
    | '-' :: rest => do
      let (n, rest) ← numeral? true rest
      return (n.toData, rest)
    | rest => do
      let (n, rest) ← numeral? false rest
      return (n.toData, rest)

def readItems : Nat → List Char → Option (List Data × List Char)
  | 0, _ => none
  | fuel + 1, chars => do
    let (item, rest) ← readValue fuel chars
    match skipBlanks rest with
    | ',' :: rest =>
      let (items, rest) ← readItems fuel rest
      return (item :: items, rest)
    | ']' :: rest => return ([item], rest)
    | _ => none

def readEntries : Nat → List Char → Option (List (Option String × Data) × List Char)
  | 0, _ => none
  | fuel + 1, chars =>
    match skipBlanks chars with
    | '"' :: rest => do
      let (key, rest) ← stringBody (some []) rest
      match skipBlanks rest with
      | ':' :: rest =>
        let (item, rest) ← readValue fuel rest
        let entry := (key.map String.ofList, item)
        match skipBlanks rest with
        | ',' :: rest =>
          let (entries, rest) ← readEntries fuel rest
          return (entry :: entries, rest)
        | '\x7d' :: rest => return ([entry], rest)
        | _ => none
      | _ => none
    | _ => none

end

def read? (text : String) : Option Data :=
  let chars := text.toList
  match readValue (chars.length + 1) chars with
  | some (d, rest) => if (skipBlanks rest).isEmpty then some d else none
  | none => none

end BenchCluster.Json
