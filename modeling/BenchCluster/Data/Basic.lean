import BenchCluster.Number

/-! # Structured data

What a document says once its notation has been read: nested lists and tables over texts and
numbers. Both notations, the tables of configuration files and the objects of descriptor files,
are read into it and records are decoded from it.
-/

namespace BenchCluster

/-- A piece of structured data. The entries of a table stand in the order in which they were
written, and a key may occur twice. An unusable value is well formed in its notation but stands
for no value, so it can only be passed over. -/
inductive Data
  | null
  | bool (b : Bool)
  | integer (n : Int)
  | number (x : Number)
  | text (s : String)
  | moment (s : String)
  | unusable
  | list (items : List Data)
  /-- A list of which a record may leave the last values unread. -/
  | openList (items : List Data)
  | table (entries : List (String × Data))
  deriving Inhabited, Repr

namespace Data

/-- The key under which a date or time of day stands when it is read as a table. -/
def momentKey : String := "$__toml_private_datetime"

def entries? : Data → Option (List (String × Data))
  | .table entries => some entries
  | .moment s => some [(momentKey, .text s)]
  | _ => none

def items? : Data → Option (List Data)
  | .list items => some items
  | .openList items => some items
  | _ => none

/-- The value of the first entry under a key. -/
def get? (d : Data) (key : String) : Option Data :=
  match d with
  | .table entries => (entries.find? (fun e => e.1 = key)).map Prod.snd
  | _ => none

end Data

end BenchCluster
