/-! # Reading bytes as UTF-8

`decodeLossy` never fails: each longest prefix of a sequence that could still have become a
character, but did not, is replaced by one U+FFFD.
-/

namespace BenchCluster.Text

/-- The number of continuation bytes a leading byte asks for, with the range of the first. -/
def continuation (lead : UInt8) : Option (Nat × UInt8 × UInt8) :=
  if 0xc2 ≤ lead ∧ lead ≤ 0xdf then some (1, 0x80, 0xbf)
  else if lead = 0xe0 then some (2, 0xa0, 0xbf)
  else if lead = 0xed then some (2, 0x80, 0x9f)
  else if 0xe1 ≤ lead ∧ lead ≤ 0xef then some (2, 0x80, 0xbf)
  else if lead = 0xf0 then some (3, 0x90, 0xbf)
  else if lead = 0xf4 then some (3, 0x80, 0x8f)
  else if 0xf1 ≤ lead ∧ lead ≤ 0xf3 then some (3, 0x80, 0xbf)
  else none

def leadBits (lead : UInt8) (more : Nat) : Nat :=
  lead.toNat % (if more = 1 then 32 else if more = 2 then 16 else 8)

/-- A character under construction: the bits so far, the bytes still to come and the range that
the next of them must lie in. -/
structure Pending where
  bits : Nat
  more : Nat
  low : UInt8
  high : UInt8

def replacement : Char := Char.ofNat 0xfffd

def decodeFrom : Option Pending → List UInt8 → List Char
  | none, [] => []
  | some _, [] => [replacement]
  | none, b :: rest => start b rest
  | some p, b :: rest =>
    if p.low ≤ b ∧ b ≤ p.high then
      let bits := p.bits * 64 + b.toNat % 64
      if p.more ≤ 1 then
        Char.ofNat bits :: decodeFrom none rest
      else
        decodeFrom (some ⟨bits, p.more - 1, 0x80, 0xbf⟩) rest
    else
      -- The byte does not belong to the character, so another one begins with it.
      replacement :: start b rest
where
  /-- A byte at which a new character begins. -/
  start (b : UInt8) (rest : List UInt8) : List Char :=
    if b < 0x80 then
      Char.ofNat b.toNat :: decodeFrom none rest
    else
      match continuation b with
      | none => replacement :: decodeFrom none rest
      | some (more, low, high) =>
        decodeFrom (some ⟨leadBits b more, more, low, high⟩) rest

/-- The text that bytes spell, with U+FFFD for what is no UTF-8. -/
def decodeLossy (bytes : List UInt8) : String :=
  let array := ByteArray.mk bytes.toArray
  match String.fromUTF8? array with
  | some text => text
  | none => String.ofList (decodeFrom none bytes)

def encode (text : String) : List UInt8 := text.toUTF8.toList

def decode? (bytes : List UInt8) : Option String :=
  String.fromUTF8? (ByteArray.mk bytes.toArray)

end BenchCluster.Text
