import BenchCluster.Toml.Numeral

/-! # Values

Values of every kind. An inline table is gathered from its pairs under the rule that also holds
for whole documents: a table that stands in one piece cannot be extended by dotted keys.
-/

namespace BenchCluster.Toml

/-- How a table came into being: by its own heading or in one piece, because a heading below it
was met, or through a dotted key. -/
inductive Origin
  | whole
  | implied
  | dotted
  deriving DecidableEq, Repr

/-- What stands under a key while a document is being read. -/
inductive Item
  | value (d : Data)
  | table (origin : Origin) (entries : List (String × Item))
  | tables (elements : List (List (String × Item)))
  deriving Inhabited

namespace Item

mutual

def toData : Item → Data
  | .value d => d
  | .table _ entries => .table (entriesToData entries)
  | .tables elements => .openList (elementsToData elements)

def entriesToData : List (String × Item) → List (String × Data)
  | [] => []
  | (key, item) :: rest => (key, item.toData) :: entriesToData rest

def elementsToData : List (List (String × Item)) → List Data
  | [] => []
  | entries :: rest => .table (entriesToData entries) :: elementsToData rest

end

end Item

abbrev Entries := List (String × Item)

def setItem (key : String) (item : Item) (entries : Entries) : Entries :=
  entries.map fun e => if e.1 = key then (key, item) else e

/-- Changes the table at the end of a path, making the tables on the way that are missing. The
path leads through the last element of an array of tables. For a dotted key the tables on the way
must not stand in one piece already. -/
def within {α : Type} (dotted : Bool)
    (change : Origin → Entries → Option (Entries × α)) :
    List String → Origin → Entries → Option (Entries × α)
  | [], origin, entries => change origin entries
  | key :: path, _, entries =>
    match entries.lookup key with
    | none => do
      let origin := if dotted then Origin.dotted else Origin.implied
      let (below, a) ← within dotted change path origin []
      return (entries ++ [(key, .table origin below)], a)
    | some (.value _) => none
    | some (.table origin below) =>
      if dotted && origin = .whole then none
      else do
        let (below, a) ← within dotted change path origin below
        return (setItem key (.table origin below) entries, a)
    | some (.tables elements) =>
      match elements.getLast? with
      | none => none
      | some last => do
        let (below, a) ← within dotted change path .whole last
        return (setItem key (.tables (elements.dropLast ++ [below])) entries, a)

/-- Adds a value under a key of one or more parts. -/
def addPair (path : List String) (d : Data) (entries : Entries) : Option Entries :=
  match path.getLast? with
  | none => none
  | some key =>
    let parents := path.dropLast
    let put : Origin → Entries → Option (Entries × Unit) := fun origin below =>
      if decide (origin = .dotted) = parents.isEmpty then none
      else if (below.lookup key).isSome then none
      else some (below ++ [(key, .value d)], ())
    (within true put parents .whole entries).map Prod.fst

def tableOfPairs (pairs : List (List String × Data)) : Option Data :=
  (pairs.foldlM (fun entries (path, d) => addPair path d entries) []).map
    fun entries => .table (Item.entriesToData entries)

mutual

/-- Reads one value that stands inside the given number of others. -/
def readValue : Nat → Nat → List Char → Option (Data × List Char)
  | 0, _, _ => none
  | fuel + 1, depth, chars =>
    match chars with
    | '[' :: rest =>
      if depth + 1 < depthLimit then
        match skipBetween rest with
        | ']' :: rest => some (.openList [], rest)
        | rest => do
          let (items, rest) ← readItems fuel (depth + 1) rest
          return (.openList items, rest)
      else none
    | '\x7b' :: rest =>
      if depth + 1 < depthLimit then
        match skipSpaces rest with
        | '\x7d' :: rest => some (.table [], rest)
        | rest => do
          let (pairs, rest) ← readPairs fuel (depth + 1) rest
          let d ← tableOfPairs pairs
          return (d, rest)
      else none
    | 't' :: 'r' :: 'u' :: 'e' :: rest => some (.bool true, rest)
    | 'f' :: 'a' :: 'l' :: 's' :: 'e' :: rest => some (.bool false, rest)
    | c :: _ =>
      if c = '"' ∨ c = '\'' then (string? chars).map fun (s, rest) => (.text s, rest)
      else numeral? chars
    | [] => none

/-- Reads the items of an array up to its closing bracket; a comma may follow the last one. -/
def readItems : Nat → Nat → List Char → Option (List Data × List Char)
  | 0, _, _ => none
  | fuel + 1, depth, chars => do
    let (item, rest) ← readValue fuel depth chars
    match skipBetween rest with
    | ']' :: rest => return ([item], rest)
    | ',' :: rest =>
      match skipBetween rest with
      | ']' :: rest => return ([item], rest)
      | rest =>
        let (items, rest) ← readItems fuel depth rest
        return (item :: items, rest)
    | _ => none

def readPairs : Nat → Nat → List Char → Option (List (List String × Data) × List Char)
  | 0, _, _ => none
  | fuel + 1, depth, chars => do
    let (path, rest) ← key? chars
    let rest ← expect? '=' rest
    let (d, rest) ← readValue fuel depth (skipSpaces rest)
    match skipSpaces rest with
    | '\x7d' :: rest => return ([(path, d)], rest)
    | ',' :: rest =>
      let (pairs, rest) ← readPairs fuel depth rest
      return ((path, d) :: pairs, rest)
    | _ => none

end

end BenchCluster.Toml
