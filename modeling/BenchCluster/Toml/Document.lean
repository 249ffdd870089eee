import BenchCluster.Toml.Value

/-! # Documents

A document is a sequence of lines: headings, which open a table or another element of an array of
tables, and pairs, which belong to the table that is open. A table may be opened once.
-/

namespace BenchCluster.Toml

/-- A document under construction. The open table is held apart until the next heading. -/
structure Draft where
  root : Entries := []
  path : List String := []
  inArray : Bool := false
  current : Entries := []

namespace Draft

def close (draft : Draft) : Option Entries :=
  match draft.path.getLast? with
  | none => some draft.current
  | some key =>
    let put : Origin → Entries → Option (Entries × Unit) := fun _ entries =>
      match draft.inArray, entries.lookup key with
      | true, none => some (entries ++ [(key, .tables [draft.current])], ())
      | true, some (.tables elements) =>
        some (setItem key (.tables (elements ++ [draft.current])) entries, ())
      | false, none => some (entries ++ [(key, .table .whole draft.current)], ())
      | _, _ => none
    (within false put draft.path.dropLast .whole draft.root).map Prod.fst

/-- Opens the table of a heading. Tables that were implied by earlier headings below it stay. -/
def openTable (draft : Draft) (path : List String) : Option Draft := do
  let root ← draft.close
  let key ← path.getLast?
  let take : Origin → Entries → Option (Entries × Entries) := fun _ entries =>
    match entries.lookup key with
    | none => some (entries, [])
    | some (.table .implied below) => some (entries.filter fun e => e.1 ≠ key, below)
    | some _ => none
  let (root, current) ← within false take path.dropLast .whole root
  return { root := root, path := path, inArray := false, current := current }

/-- Opens a further element of an array of tables. -/
def openElement (draft : Draft) (path : List String) : Option Draft := do
  let root ← draft.close
  let key ← path.getLast?
  let look : Origin → Entries → Option (Entries × Unit) := fun _ entries =>
    match entries.lookup key with
    | none => some (entries, ())
    | some (.tables _) => some (entries, ())
    | some _ => none
  let (root, _) ← within false look path.dropLast .whole root
  return { root := root, path := path, inArray := true, current := [] }

def add (draft : Draft) (path : List String) (d : Data) : Option Draft := do
  let current ← addPair path d draft.current
  return { draft with current := current }

end Draft

def heading? (draft : Draft) (chars : List Char) : Option (Draft × List Char) :=
  match chars with
  | '[' :: rest => do
    let (path, rest) ← key? rest
    let rest ← expect? ']' rest
    let rest ← expect? ']' rest
    let rest ← lineEnd? rest
    let draft ← draft.openElement path
    return (draft, rest)
  | rest => do
    let (path, rest) ← key? rest
    let rest ← expect? ']' rest
    let rest ← lineEnd? rest
    let draft ← draft.openTable path
    return (draft, rest)

def pair? (draft : Draft) (chars : List Char) : Option (Draft × List Char) := do
  let (path, rest) ← key? chars
  let rest ← expect? '=' rest
  let (d, rest) ← readValue (rest.length + 1) 0 (skipSpaces rest)
  let rest ← lineEnd? rest
  let draft ← draft.add path d
  return (draft, rest)

def readLines : Nat → Draft → List Char → Option Draft
  | 0, _, _ => none
  | fuel + 1, draft, chars =>
    match skipSpaces chars with
    | [] => some draft
    | '[' :: rest => do
      let (draft, rest) ← heading? draft rest
      readLines fuel draft rest
    | c :: rest =>
      if c = '#' ∨ c = '\n' ∨ c = '\r' then do
        let rest ← lineEnd? (c :: rest)
        readLines fuel draft rest
      else do
        let (draft, rest) ← pair? draft (c :: rest)
        readLines fuel draft rest

def read? (text : String) : Option Data := do
  let chars := match text.toList with
    | '\ufeff' :: rest => rest
    | chars => chars
  let draft ← readLines (chars.length + 1) {} chars
  let entries ← draft.close
  return .table (Item.entriesToData entries)

end BenchCluster.Toml
