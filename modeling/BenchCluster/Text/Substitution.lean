/-! # Replacing one text by another

`replace` substitutes every occurrence of a needle, scanning from left to right and never looking
into the text it has just inserted; `fill` substitutes the placeholders of a list one key after
the other.
-/

namespace BenchCluster.Text

/-- Scans the characters with a number of them still to be skipped, because they belong to an
occurrence that has been replaced already. -/
def replaceFrom (needle value : List Char) : Nat → List Char → List Char
  | _, [] => []
  | skip + 1, _ :: rest => replaceFrom needle value skip rest
  | 0, c :: rest =>
    if needle.isPrefixOf (c :: rest) then
      value ++ replaceFrom needle value (needle.length - 1) rest
    else
      c :: replaceFrom needle value 0 rest

/-- Every occurrence of a needle, found from the left and without overlaps, becomes the value. -/
def replace (needle value text : String) : String :=
  String.ofList (replaceFrom needle.toList value.toList 0 text.toList)

/-- The written form of a placeholder: its key in braces. -/
def placeholder (key : String) : String := "\x7b" ++ key ++ "\x7d"

/-- Replaces the placeholder of each key by its value, in the order of the list. -/
def fill (values : List (String × String)) (text : String) : String :=
  values.foldl (fun text (key, value) => replace (placeholder key) value text) text

@[simp] theorem replaceFrom_nil (needle value : List Char) (skip : Nat) :
    replaceFrom needle value skip [] = [] := by
  cases skip <;> rfl

@[simp] theorem fill_nil (text : String) : fill [] text = text := rfl

theorem fill_cons (key value : String) (values : List (String × String)) (text : String) :
    fill ((key, value) :: values) text = fill values (replace (placeholder key) value text) := rfl

theorem fill_append (first second : List (String × String)) (text : String) :
    fill (first ++ second) text = fill second (fill first text) := by
  simp [fill]

end BenchCluster.Text
