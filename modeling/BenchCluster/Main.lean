import BenchCluster.CommandLine.Run

/-! # The program

The command line over the files of this machine. The directories of a run are read beforehand, and
what the run has changed is written afterwards. Other programs are not started, so calls of the
remote shell and of cloud commands fail as they do where these are not installed.
-/

namespace BenchCluster.CommandLine

/-- The world outside as it was read before a run. -/
structure Snapshot where
  files : FileTree
  bindings : Dict String
  now : Timestamp

namespace Snapshot

def console : Console Snapshot :=
  { files := Snapshot.files
    valueOf := fun name s => s.bindings.find? name
    store := .ofFiles Snapshot.files fun s files => { s with files := files }
    interrupted := fun _ => false
    now := Snapshot.now
    programs := { run := fun _ _ s => (.ended .zero none, s) } }

def variableNames : List String :=
  [Host.portVariable, configDirVariable, stateDirVariable]

def readVariables : IO (Dict String) := do
  let found ← variableNames.filterMapM fun name => do
    return (← IO.getEnv name).map fun value => (name, value)
  return Dict.ofList found

/-- The present time, which is that of a file made just now. -/
def readClock : IO Timestamp := do
  let (_, path) ← IO.FS.createTempFile
  let modified := (← path.metadata).modified
  IO.FS.removeFile path
  let civil := CivilTime.ofSeconds modified.sec modified.nsec.toNat
  return (Timestamp.ofCivil? civil).getD .epoch

def readDirectory (directory : String) (files : FileTree) : IO FileTree := do
  let place := (← IO.currentDir) / directory
  if ← place.isDir then
    (← place.readDir).foldlM (fun files entry => do
      let path := joinPath directory entry.fileName
      if ← entry.path.isDir then return files.addDirectory path
      else return files.addFile path (← IO.FS.readBinFile entry.path).toList)
      (files.addDirectory directory)
  else if ← place.pathExists then
    return files.addFile directory (← IO.FS.readBinFile place).toList
  else return files

def pathOf : List String → String
  | name :: rest =>
    if name = FileTree.rootName then name ++ "/".intercalate rest
    else "/".intercalate (name :: rest)
  | [] => "."

def writeWhole (path : String) (content : List UInt8) : IO Unit := do
  let fresh := path ++ ".new"
  IO.FS.writeBinFile fresh ⟨content.toArray⟩
  IO.FS.rename fresh path

/-- Writes what a run has changed. -/
def writeChanges (before after : FileTree) : IO Unit := do
  for (place, _) in before.entries do
    if (after.entry? place).isNone then IO.FS.removeFile (pathOf place)
  for (place, entry) in after.entries.reverse do
    if before.entry? place ≠ some entry then
      match entry with
      | .directory => IO.FS.createDirAll (pathOf place)
      | .file content _ => writeWhole (pathOf place) content

end Snapshot

def usageText : String :=
  "Usage: benchctl [--config-dir DIR] [--state-dir DIR] [--verbose] COMMAND\n\n" ++
  "Commands:\n" ++
  "  configure CLUSTER --implementation NAME [--force]\n" ++
  "  all CLUSTER --implementation NAME [--force]\n" ++
  "  allocate CLUSTER [--force]\n" ++
  "  make CLUSTER\n" ++
  "  install CLUSTER\n" ++
  "  clean CLUSTER\n" ++
  "  start CLUSTER\n" ++
  "  stop CLUSTER\n" ++
  "  status [CLUSTER]"

def answerUsage (usage : Usage) : IO UInt32 := do
  match usage with
  | .displayHelp => IO.println usageText
  | .displayVersion => IO.println "benchctl"
  | _ => IO.eprintln usageText
  return usage.exitStatus.toUInt32

def runOnce (a : Arguments) : IO UInt32 := do
  let bindings ← Snapshot.readVariables
  let empty : Snapshot := { files := .empty, bindings := bindings, now := ← Snapshot.readClock }
  let dirs := Snapshot.console.directories a empty
  let files ← Snapshot.readDirectory dirs.config .empty
  let files ← Snapshot.readDirectory dirs.state files
  let (outcome, after) := Snapshot.console.execute a { empty with files := files }
  Snapshot.writeChanges files after.files
  outcome.stdout.forM IO.println
  outcome.stderr.forM IO.eprintln
  return outcome.exitStatus.toUInt32

end BenchCluster.CommandLine

def main (arguments : List String) : IO UInt32 := do
  match BenchCluster.CommandLine.Arguments.read arguments with
  | .error usage => BenchCluster.CommandLine.answerUsage usage
  | .ok a => BenchCluster.CommandLine.runOnce a
