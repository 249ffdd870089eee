import BenchCluster.Data.Basic
import BenchCluster.Text.Substitution
import BenchCluster.Text.Split

/-! # Pointers into structured data

A pointer names a place by the keys and positions that lead to it, each behind a slash.
-/

namespace BenchCluster.Data

/-- The keys of a pointer. A slash within a key is written `~1`, a tilde `~0`. -/
def pointerKeys (pointer : String) : List String :=
  ((Text.split '/' pointer).drop 1).map fun key =>
    Text.replace "~0" "~" (Text.replace "~1" "/" key)

/-- Puts a value at a place. A key that a table does not have is added; a position that a list
does not have leads nowhere. -/
def putAt (value : Data) : List String → Data → Data
  | [], _ => value
  | key :: rest, .table entries =>
    if entries.any fun e => e.1 = key then
      .table (entries.map fun e => if e.1 = key then (key, putAt value rest e.2) else e)
    else .table (entries ++ [(key, putAt value rest .null)])
  | key :: rest, .list items =>
    .list (items.mapIdx fun i item => if toString i = key then putAt value rest item else item)
  | _, d => d

end BenchCluster.Data
