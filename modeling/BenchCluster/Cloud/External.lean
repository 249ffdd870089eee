import BenchCluster.Cloud.Basic

/-! # External machines

A client for machines that exist already. They are handed out in turn and left alone otherwise.
-/

namespace BenchCluster.External

def client : String := "external"

/-- The machine for a request: the hosts of the role are used in turn. -/
def machine? (r : LaunchRequest) : Option Machine :=
  match r.params.hosts[r.index % r.params.hosts.length]? with
  | none => none
  | some address =>
    some { r.machine (client ++ "-" ++ r.name) with
      publicAddress := some address, managed := false }

/-- The error of every call about volumes. -/
def noStorage : CloudError := .unsupported client "shared storage"

def cloud {ω : Type} : Cloud ω :=
  { launchInstance := fun r => return .ok (machine? r)
    terminateInstance := fun _ => return .ok ()
    startInstance := fun m => return .ok m
    stopInstance := fun _ => return .ok ()
    launchStorage := fun _ => return .error noStorage
    destroyStorage := fun _ => return .error noStorage
    isRunning := fun _ => return .ok false }

end BenchCluster.External
