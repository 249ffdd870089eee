import BenchCluster.Data.Basic
import BenchCluster.Dict

/-! # Decoding values and records

A decoder answers with a value or refuses. Records are written as tables with named fields, or as
lists of the same fields in their declared order; `Record` covers both, and the three ways to ask
it for a field say what a missing one means.
-/

namespace BenchCluster

/-- Reads a value of a type out of structured data, or refuses. -/
abbrev Decoder (α : Type) := Data → Option α

namespace Decoder

variable {α : Type}

def text : Decoder String
  | .text s => some s
  | _ => none

def bool : Decoder Bool
  | .bool b => some b
  | _ => none

/-- A whole number from zero up to, and without, the bound. -/
def below (bound : Nat) : Decoder Nat
  | .integer n => if 0 ≤ n ∧ n < bound then some n.toNat else none
  | _ => none

def signed : Decoder Int
  | .integer n => some n
  | _ => none

def uint16 : Decoder UInt16 := fun d => (below UInt16.size d).map UInt16.ofNat

def uint32 : Decoder UInt32 := fun d => (below UInt32.size d).map UInt32.ofNat

def uint64 : Decoder UInt64 := fun d => (below UInt64.size d).map UInt64.ofNat

def natural : Decoder Nat := below UInt64.size

def number : Decoder Number
  | .integer n => some (.ofInt n)
  | .number x => some x
  | _ => none

def optional (decode : Decoder α) : Decoder (Option α)
  | .null => some none
  | d => (decode d).map some

def list (decode : Decoder α) : Decoder (List α) := fun d => do
  let items ← d.items?
  items.mapM decode

def pairs (decode : Decoder α) (entries : List (String × Data)) : Option (List (String × α)) :=
  entries.mapM fun e => (decode e.2).map fun v => (e.1, v)

/-- A dictionary; of two entries with one key the later counts. -/
def dict (decode : Decoder α) : Decoder (Dict α) := fun d => do
  let entries ← d.entries?
  let decoded ← pairs decode entries
  return Dict.ofList decoded

/-- One of several words, as a text or as a table whose only entry is the word with nothing. -/
def oneOf (choices : List (String × α)) : Decoder α
  | .text s => choices.lookup s
  | .table [(s, .null)] => choices.lookup s
  | _ => none

end Decoder

/-- What a record says about one of its fields. -/
inductive Field
  | given (d : Data)
  | absent
  | cutOff
  deriving Inhabited, Repr

/-- The fields of a record in their declared order. In a record written as a list a field can be
cut off, which is not the same as a named field that is absent. -/
structure Record where
  fields : List (String × Field)

namespace Record

variable {α : Type}

def ofItems (names : List String) (items : List Data) : Record :=
  let rest := List.replicate (names.length - items.length) Field.cutOff
  ⟨names.zip (items.map Field.given ++ rest)⟩

/-- Reads a record with the given field names. A field must not be given twice, and a strict
record has no fields beyond the declared ones. -/
def read? (strict : Bool) (names : List String) : Data → Option Record
  | .list items => if items.length ≤ names.length then some (ofItems names items) else none
  | .openList items => some (ofItems names items)
  | d => do
    let entries ← d.entries?
    if strict && entries.any (fun e => !names.contains e.1) then none
    else if names.any (fun name => decide (1 < (entries.filter (fun e => e.1 = name)).length)) then
      none
    else
      return ⟨names.map fun name =>
        (name, match entries.find? (fun e => e.1 = name) with
          | some (_, d) => .given d
          | none => .absent)⟩

def field (r : Record) (name : String) : Field := (r.fields.lookup name).getD .absent

def required (r : Record) (name : String) (decode : Decoder α) : Option α :=
  match r.field name with
  | .given d => decode d
  | _ => none

/-- The value of a field that may be absent by name, but not cut off. -/
def nullable (r : Record) (name : String) (decode : Decoder α) : Option (Option α) :=
  match r.field name with
  | .given d => Decoder.optional decode d
  | .absent => some none
  | .cutOff => none

def withDefault (r : Record) (name : String) (decode : Decoder α) (default : α) : Option α :=
  match r.field name with
  | .given d => decode d
  | _ => some default

def optional (r : Record) (name : String) (decode : Decoder α) : Option (Option α) :=
  r.withDefault name (Decoder.optional decode) none

end Record

end BenchCluster
