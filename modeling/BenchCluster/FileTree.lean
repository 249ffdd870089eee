import BenchCluster.Text.Split
import BenchCluster.Text.Utf8

/-! # Files and directories

The files that a program sees from its working directory. A place is the list of the names that
lead to it; the places under the root of the file system begin with a slash. Paths are resolved
the usual way, and what cannot be done fails with a cause.
-/

namespace BenchCluster

/-- What stands at a place. -/
inductive FileEntry
  | file (content : List UInt8) (executable : Bool)
  | directory
  deriving DecidableEq, Repr

/-- The reasons for which an operation on files fails. -/
inductive FileError
  | notFound
  | notDirectory
  | isDirectory
  | alreadyExists
  | nameTooLong
  | notText
  deriving DecidableEq, Repr

/-- The entries of a file system, each under its place. -/
structure FileTree where
  entries : List (List String × FileEntry)
  deriving DecidableEq, Repr, Inhabited

namespace FileTree

def empty : FileTree := ⟨[]⟩

def rootName : String := "/"

/-- The parts of a path, without those that lead nowhere. -/
def components (path : String) : List String :=
  let parts := (path.toList.splitOn '/').map String.ofList
  let names := parts.filter fun part => part ≠ "" && part ≠ "."
  if path.toList.head? = some '/' then rootName :: names else names

/-- The number of bytes that a name may have. -/
def maxNameLength : Nat := 255

def entry? (t : FileTree) (place : List String) : Option FileEntry :=
  if place = [] ∨ place = [rootName] then some .directory
  else (t.entries.find? fun e => e.1 = place).map Prod.snd

/-- Follows names from a place that has been reached. -/
def walk (t : FileTree) : List String → List String → Except FileError (List String)
  | place, [] => .ok place
  | place, name :: rest =>
    match t.entry? place with
    | none => .error .notFound
    | some (.file _ _) => .error .notDirectory
    | some .directory =>
      if name = ".." then
        if place = [] then .error .notFound
        else if place = [rootName] then t.walk place rest
        else t.walk place.dropLast rest
      else if maxNameLength < name.utf8ByteSize then .error .nameTooLong
      else t.walk (place ++ [name]) rest

/-- The place that a path leads to; only its last name may lead to nothing. -/
def resolve (t : FileTree) (path : String) : Except FileError (List String) :=
  if path = "" then .error .notFound else t.walk [] (components path)

def look (t : FileTree) (path : String) : Except FileError FileEntry := do
  let place ← t.resolve path
  match t.entry? place with
  | some e => .ok e
  | none => .error .notFound

def pathExists (t : FileTree) (path : String) : Bool := (t.look path).isOk

def put (t : FileTree) (place : List String) (e : FileEntry) : FileTree :=
  ⟨(place, e) :: t.entries.filter fun old => old.1 ≠ place⟩

def remove (t : FileTree) (place : List String) : FileTree :=
  ⟨t.entries.filter fun old => old.1 ≠ place⟩

def readBytes (t : FileTree) (path : String) : Except FileError (List UInt8) := do
  match ← t.look path with
  | .file content _ => .ok content
  | .directory => .error .isDirectory

def readText (t : FileTree) (path : String) : Except FileError String := do
  let content ← t.readBytes path
  match Text.decode? content with
  | some text => .ok text
  | none => .error .notText

def writeBytes (t : FileTree) (path : String) (content : List UInt8) :
    Except FileError FileTree := do
  let place ← t.resolve path
  match t.entry? place with
  | some .directory => .error .isDirectory
  | some (.file _ executable) => .ok (t.put place (.file content executable))
  | none => .ok (t.put place (.file content false))

def writeText (t : FileTree) (path content : String) : Except FileError FileTree :=
  t.writeBytes path (Text.encode content)

def writeProgram (t : FileTree) (path content : String) : Except FileError FileTree := do
  let place ← t.resolve path
  .ok (t.put place (.file (Text.encode content) true))

def makeDirectories (t : FileTree) (place : List String) : List String → Except FileError FileTree
  | [] => .ok t
  | name :: rest =>
    if name = ".." then .error .notFound
    else if maxNameLength < name.utf8ByteSize then .error .nameTooLong
    else
      let next := place ++ [name]
      match t.entry? next with
      | some (.file _ _) => .error .alreadyExists
      | some .directory => t.makeDirectories next rest
      | none => (t.put next .directory).makeDirectories next rest

/-- Makes a directory with all that lead to it; one that is there already will do. -/
def makeDirectory (t : FileTree) (path : String) : Except FileError FileTree :=
  t.makeDirectories [] (components path)

def removeFile (t : FileTree) (path : String) : Except FileError FileTree := do
  let place ← t.resolve path
  match t.entry? place with
  | some (.file _ _) => .ok (t.remove place)
  | some .directory => .error .isDirectory
  | none => .error .notFound

/-- The files after a change, or as they were if it cannot be made. -/
def attempt (t : FileTree) (change : FileTree → Except FileError FileTree) : FileTree :=
  match change t with
  | .ok changed => changed
  | .error _ => t

def parentOf (path : String) : String := ((Text.splitAtLast '/' path).map Prod.fst).getD ""

def addFile (t : FileTree) (path : String) (content : List UInt8) : FileTree :=
  (t.attempt (·.makeDirectory (parentOf path))).attempt (·.writeBytes path content)

def addDirectory (t : FileTree) (path : String) : FileTree :=
  t.attempt (·.makeDirectory path)

def childName? (directory place : List String) : Option String :=
  match place.getLast? with
  | some name => if place.dropLast = directory then some name else none
  | none => none

def list (t : FileTree) (path : String) : Except FileError (List String) := do
  let place ← t.resolve path
  match t.entry? place with
  | some .directory => .ok (t.entries.filterMap fun e => childName? place e.1)
  | some (.file _ _) => .error .notDirectory
  | none => .error .notFound

end FileTree

def joinPath (directory name : String) : String :=
  if directory = "" then name
  else if directory.toList.getLast? = some '/' then directory ++ name
  else directory ++ "/" ++ name

end BenchCluster
