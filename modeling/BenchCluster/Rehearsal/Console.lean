import BenchCluster.CommandLine.Run
import BenchCluster.Rehearsal.Stage

/-! # The command line on a stage

A rehearsal of whole runs: the files, variables and programs of a stage as a console, and the next
invocation on the same world.
-/

namespace BenchCluster.Rehearsal.Stage

def console : CommandLine.Console Stage :=
  { files := Stage.files
    valueOf := fun name s => s.bindings.find? name
    store := storeAccess
    interrupted := Stage.interrupted
    now := fun _ => .epoch
    programs := programs }

/-- The stage for the next invocation, which nobody has asked to stop. -/
def reopen (s : Stage) : Stage :=
  { s with invocation := s.invocation + 1, interrupted := false }

end BenchCluster.Rehearsal.Stage
