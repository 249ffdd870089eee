/-! # White space, comments and line ends

The text between the keys and values of a configuration file. Every reader here takes the
characters left and answers with those that remain.
-/

namespace BenchCluster.Toml

def skipSpaces (chars : List Char) : List Char := chars.dropWhile fun c => c = ' ' || c = '\t'

/-- Whether a character may stand in a comment or a string: no control character but the tab. -/
def isPrintable (c : Char) : Bool := c = '\t' || (0x20 ≤ c.toNat && c.toNat ≠ 0x7f)

def newline? : List Char → Option (List Char)
  | '\n' :: rest => some rest
  | '\r' :: '\n' :: rest => some rest
  | _ => none

def skipComment : List Char → List Char
  | '#' :: rest => rest.dropWhile isPrintable
  | chars => chars

/-- Drops what may follow on a line, with the line end; the end of the text will do as well. -/
def lineEnd? (chars : List Char) : Option (List Char) :=
  match skipComment (skipSpaces chars) with
  | [] => some []
  | rest => newline? rest

/-- Drops spaces, comments and line ends; a comment ends with a line end or with the text. -/
def skipLines : Nat → List Char → List Char
  | 0, chars => chars
  | fuel + 1, chars =>
    match skipSpaces chars with
    | '#' :: rest =>
      match newline? (rest.dropWhile isPrintable) with
      | some rest => skipLines fuel rest
      | none => '#' :: rest
    | rest =>
      match newline? rest with
      | some rest => skipLines fuel rest
      | none => rest

def skipBetween (chars : List Char) : List Char := skipLines (chars.length + 1) chars

end BenchCluster.Toml
