import BenchCluster.FileTree
import BenchCluster.Cluster.Codec

/-! # The descriptor store

A directory with one file for every cluster that has been configured. Each operation takes the
files as they are and answers with the files as they are afterwards.
-/

namespace BenchCluster

/-- The reasons for which the store refuses. -/
inductive StoreError
  | notFound (cluster : String)
  | invalidName (cluster : String)
  | inaccessible (path : String)
  | malformed (path : String)
  deriving DecidableEq, Repr

def StoreError.message : StoreError → String
  | .notFound cluster => s!"no cluster named '{cluster}' has been configured"
  | .invalidName cluster => s!"'{cluster}' is not a valid cluster name"
  | .inaccessible path => s!"could not access '{path}'"
  | .malformed path => s!"could not parse cluster descriptor '{path}'"

/-- Whether a descriptor can be kept under a name. -/
def isValidClusterName (name : String) : Bool :=
  let chars := name.toList
  !chars.isEmpty && chars.head? ≠ some '.' &&
    !chars.any fun c => c = '/' || c = '\\' || c = '\x00'

/-- A store is known by its directory. -/
structure Store where
  directory : String
  deriving DecidableEq, Repr, Inhabited

namespace Store

def path (s : Store) (cluster : String) : Except StoreError String :=
  if isValidClusterName cluster then .ok (joinPath s.directory (cluster ++ ".json"))
  else .error (.invalidName cluster)

def contains (s : Store) (files : FileTree) (cluster : String) : Except StoreError Bool := do
  let path ← s.path cluster
  return files.pathExists path

def load (s : Store) (files : FileTree) (cluster : String) :
    Except StoreError ClusterDescriptor := do
  let path ← s.path cluster
  match files.readText path with
  | .error .notFound => .error (.notFound cluster)
  | .error _ => .error (.inaccessible path)
  | .ok text =>
    match ClusterDescriptor.ofText? text with
    | some d => .ok d
    | none => .error (.malformed path)

/-- Writes a descriptor in place of the one before. The directory is made if it is missing, and
stays even if the file cannot be written. -/
def save (s : Store) (files : FileTree) (d : ClusterDescriptor) :
    Except StoreError Unit × FileTree :=
  match s.path d.clusterName with
  | .error e => (.error e, files)
  | .ok path =>
    match files.makeDirectory s.directory with
    | .error _ => (.error (.inaccessible path), files)
    | .ok made =>
      match made.writeText path (d.toText ++ "\n") with
      | .error _ => (.error (.inaccessible path), made)
      | .ok written => (.ok (), written)

/-- Forgets a cluster; it need not be there. -/
def delete (s : Store) (files : FileTree) (cluster : String) :
    Except StoreError Unit × FileTree :=
  match s.path cluster with
  | .error e => (.error e, files)
  | .ok path =>
    match files.removeFile path with
    | .ok rest => (.ok (), rest)
    | .error .notFound => (.ok (), files)
    | .error _ => (.error (.inaccessible path), files)

def clusterOfFile? (name : String) : Option String :=
  match Text.splitAtLast '.' name with
  | some (stem, extension) => if extension = "json" && stem ≠ "" then some stem else none
  | none => none

def list (s : Store) (files : FileTree) : Except StoreError (List String) :=
  match files.list s.directory with
  | .error .notFound => .ok []
  | .error _ => .error (.inaccessible s.directory)
  | .ok names => .ok ((names.filterMap clusterOfFile?).mergeSort (fun a b => decide (a ≤ b)))

end Store

end BenchCluster
