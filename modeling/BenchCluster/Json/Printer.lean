import BenchCluster.Data.Basic

/-! # Writing JSON

Two layouts of the same text: `compact` without any white space, and `pretty` with one entry or
item a line, indented by two spaces a level.
-/

namespace BenchCluster.Json

def hexDigit (n : Nat) : Char := (Nat.digitChar n)

/-- The written form of a character inside a string: quotes, backslashes and control characters
are escaped, all others stand for themselves. -/
def escape (c : Char) : List Char :=
  if c = '"' then ['\\', '"']
  else if c = '\\' then ['\\', '\\']
  else if c = '\x08' then ['\\', 'b']
  else if c = '\x0c' then ['\\', 'f']
  else if c = '\n' then ['\\', 'n']
  else if c = '\r' then ['\\', 'r']
  else if c = '\t' then ['\\', 't']
  else if c.toNat < 0x20 then
    ['\\', 'u', '0', '0', hexDigit (c.toNat / 16), hexDigit (c.toNat % 16)]
  else [c]

def quoted (s : String) : List Char := '"' :: s.toList.flatMap escape ++ ['"']

def scalar : Data → List Char
  | .bool true => "true".toList
  | .bool false => "false".toList
  | .integer n => (toString n).toList
  | .number x => x.toText.toList
  | .text s => quoted s
  | .moment s => quoted s
  | _ => "null".toList

mutual

def compactChars : Data → List Char
  | .list items => '[' :: compactItems items ++ [']']
  | .table entries => '\x7b' :: compactEntries entries ++ ['\x7d']
  | d => scalar d

def compactItems : List Data → List Char
  | [] => []
  | [d] => compactChars d
  | d :: rest => compactChars d ++ ',' :: compactItems rest

def compactEntries : List (String × Data) → List Char
  | [] => []
  | [(k, d)] => quoted k ++ ':' :: compactChars d
  | (k, d) :: rest => quoted k ++ ':' :: compactChars d ++ ',' :: compactEntries rest

end

def newline (level : Nat) : List Char := '\n' :: List.replicate (2 * level) ' '

mutual

def prettyChars (level : Nat) : Data → List Char
  | .list [] => ['[', ']']
  | .list items => '[' :: prettyItems (level + 1) items ++ newline level ++ [']']
  | .table [] => ['\x7b', '\x7d']
  | .table entries => '\x7b' :: prettyEntries (level + 1) entries ++ newline level ++ ['\x7d']
  | d => scalar d

def prettyItems (level : Nat) : List Data → List Char
  | [] => []
  | [d] => newline level ++ prettyChars level d
  | d :: rest => newline level ++ prettyChars level d ++ ',' :: prettyItems level rest

def prettyEntries (level : Nat) : List (String × Data) → List Char
  | [] => []
  | [(k, d)] => newline level ++ quoted k ++ ':' :: ' ' :: prettyChars level d
  | (k, d) :: rest =>
    newline level ++ quoted k ++ ':' :: ' ' :: prettyChars level d ++ ',' ::
      prettyEntries level rest

end

/-- The text of a value on one line. -/
def compact (d : Data) : String := String.ofList (compactChars d)

/-- The text of a value, spread over lines. -/
def pretty (d : Data) : String := String.ofList (prettyChars 0 d)

end BenchCluster.Json
