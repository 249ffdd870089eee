import BenchCluster.Orchestrator.Roles

/-! # Cleaning up a cluster

Machines and volumes that cannot be removed stay in the descriptor, so that a later attempt finds
them; once nothing is left the cluster is forgotten.
-/

namespace BenchCluster

/-- Whether a machine has to be terminated when its cluster is cleaned up. -/
def Machine.isOwned (m : Machine) : Bool := m.managed && m.provisioned

def succeededNames (results : List (JobResult Unit)) : List String :=
  results.filterMap fun (name, result) => if result.isOk then some name else none

namespace ClusterDescriptor

/-- Whether roles may have been installed on the members. -/
def mayHaveRoles (d : ClusterDescriptor) : Bool :=
  d.state = .allocated || d.state = .ready || d.state = .down

def ownedMachines (d : ClusterDescriptor) : List Machine := d.members.values.filter Machine.isOwned

/-- The descriptor without the terminated machines and without those of others. -/
def withoutMachines (d : ClusterDescriptor) (terminated : List String) : ClusterDescriptor :=
  let left := terminated.foldl (fun members name => members.erase name) d.members
  { d with members := left.filter fun _ m => m.isOwned }

def withoutVolumes (d : ClusterDescriptor) (destroyed : List String) : ClusterDescriptor :=
  { d with sharedStorage := d.sharedStorage.filter fun v => !destroyed.contains v.id }

def remaining (d : ClusterDescriptor) : List String :=
  d.members.keys ++ d.sharedStorage.map Volume.name

end ClusterDescriptor

namespace Surroundings

variable {ω : Type}

/-- Cleans up the roles as far as that goes. -/
def cleanRoles (s : Surroundings ω) (d : ClusterDescriptor) : Action ω Unit := do
  match s.rolesOf d with
  | .error _ => return ()
  | .ok (_, roles) =>
    let _ ← onEveryRole Role.clean roles
    return ()

def terminateJob (clouds : Dict (Cloud ω)) (m : Machine) :
    Except OrchestratorError (Job ω Unit) := do
  let cloud ← cloudOf clouds m.environment
  return ⟨m.name, cloud.terminateInstance m⟩

def destroyJob (clouds : Dict (Cloud ω)) (v : Volume) :
    Except OrchestratorError (Job ω Unit) := do
  let cloud ← cloudOf clouds v.environment
  return ⟨v.id, cloud.destroyStorage v⟩

/-- Tears a cluster down and forgets it. -/
def clean (s : Surroundings ω) (cluster : String) : Work ω Unit := do
  let d ← s.loadFor cluster .clean
  if d.mayHaveRoles then Work.ofAction (s.cleanRoles d)
  let clouds ← Work.ofExcept id (s.cloudsFor d.environments)
  let terminations ← Work.ofExcept id (d.ownedMachines.mapM (terminateJob clouds))
  let terminated ← Work.ofAction (s.inPool .terminations terminations)
  let d := d.withoutMachines (succeededNames terminated)
  let destructions ← Work.ofExcept id (d.sharedStorage.mapM (destroyJob clouds))
  let destroyed ← Work.ofAction (s.inPool .destructions destructions)
  let d := d.withoutVolumes (succeededNames destroyed)
  if d.remaining.isEmpty then
    Work.ofFallible .store (Action.outside (s.store.delete cluster))
  else
    s.save { d with state := .failed }
    throw (.cleanupFailed cluster d.remaining)

end Surroundings

end BenchCluster
