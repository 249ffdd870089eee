/-! # Splitting and trimming texts

Splitting at a separator character loses nothing: joining the pieces gives the text back.
-/

namespace BenchCluster.Text

def splitChars (sep : Char) : List Char → List (List Char)
  | [] => [[]]
  | c :: rest =>
    match splitChars sep rest with
    | [] => [[c]]
    | piece :: pieces => if c = sep then [] :: piece :: pieces else (c :: piece) :: pieces

/-- The pieces of a text between the occurrences of a separator; there is always at least one. -/
def split (sep : Char) (text : String) : List String :=
  (splitChars sep text.toList).map String.ofList

/-- The pieces between the occurrences of a separator that are not empty. -/
def words (sep : Char) (text : String) : List String :=
  (split sep text).filter (· ≠ "")

/-- The texts before and after the last occurrence of a character, if there is one. -/
def splitAtLast (sep : Char) (text : String) : Option (String × String) :=
  let chars := text.toList
  let tail := (chars.reverse.takeWhile (· ≠ sep)).reverse
  if chars.contains sep then
    some (String.ofList (chars.take (chars.length - tail.length - 1)), String.ofList tail)
  else
    none

def occursIn (needle : List Char) : List Char → Bool
  | [] => needle.isEmpty
  | c :: rest => needle.isPrefixOf (c :: rest) || occursIn needle rest

def contains (text needle : String) : Bool := occursIn needle.toList text.toList

def containsChar (text : String) (c : Char) : Bool := text.toList.contains c

/-- The characters counted as blank: those with the Unicode property White_Space. -/
def isBlank (c : Char) : Bool :=
  let n := c.toNat
  (9 ≤ n && n ≤ 13) || n = 0x20 || n = 0x85 || n = 0xa0 || n = 0x1680 ||
  (0x2000 ≤ n && n ≤ 0x200a) || n = 0x2028 || n = 0x2029 || n = 0x202f || n = 0x205f || n = 0x3000

def trim (text : String) : String :=
  String.ofList (((text.toList.dropWhile isBlank).reverse.dropWhile isBlank).reverse)

end BenchCluster.Text
