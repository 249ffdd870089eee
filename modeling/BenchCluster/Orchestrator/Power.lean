import BenchCluster.Orchestrator.Roles

/-! # Stopping and starting a cluster

Roles are stopped before instances, and started after them. Instances that keep their data on
themselves are left running.
-/

namespace BenchCluster

/-- Whether the instance of a machine is stopped and started with its cluster. -/
def Machine.isStoppable (m : Machine) : Bool := m.managed && !m.ephemeral

namespace ClusterDescriptor

def stoppableMachines (d : ClusterDescriptor) : List Machine :=
  d.members.values.filter Machine.isStoppable

def withStarted (d : ClusterDescriptor) (results : List (JobResult Machine)) :
    ClusterDescriptor :=
  { d with
    members := results.foldl (fun members (name, result) =>
      match result with
      | .ok m => members.insert name m
      | .error _ => members) d.members }

end ClusterDescriptor

namespace Surroundings

variable {ω : Type}

def stopJob (clouds : Dict (Cloud ω)) (m : Machine) : Except OrchestratorError (Job ω Unit) := do
  let cloud ← cloudOf clouds m.environment
  return ⟨m.name, cloud.stopInstance m⟩

def startJob (clouds : Dict (Cloud ω)) (m : Machine) :
    Except OrchestratorError (Job ω Machine) := do
  let cloud ← cloudOf clouds m.environment
  return ⟨m.name, cloud.startInstance m⟩

/-- Stops the roles, then the instances. -/
def stop (s : Surroundings ω) (cluster : String) : Work ω ClusterDescriptor := do
  let d ← s.loadFor cluster .stop
  let (_, roles) ← Work.ofExcept id (s.rolesOf d)
  runPhase .stop Role.stop roles
  s.checkInterrupted
  let clouds ← Work.ofExcept id (s.cloudsFor d.environments)
  let jobs ← Work.ofExcept id (d.stoppableMachines.mapM (stopJob clouds))
  let results ← Work.ofAction (s.inPool .stops jobs)
  let failures := failuresOf results
  if !failures.isEmpty then throw (.phaseFailed .stop failures)
  let after := { d with state := .down }
  s.save after
  return after

/-- Starts the instances, then the roles. The addresses of the instances that have come up are
stored even if others have not. -/
def start (s : Surroundings ω) (cluster : String) : Work ω ClusterDescriptor := do
  let d ← s.loadFor cluster .start
  let clouds ← Work.ofExcept id (s.cloudsFor d.environments)
  let jobs ← Work.ofExcept id (d.stoppableMachines.mapM (startJob clouds))
  let results ← Work.ofAction (s.inPool .starts jobs)
  let d := d.withStarted results
  let failures := failuresOf results
  if !failures.isEmpty then
    s.save d
    throw (.phaseFailed .start failures)
  -- From here on an error leaves the new addresses unstored.
  s.checkInterrupted
  let (_, roles) ← Work.ofExcept id (s.rolesOf d)
  runPhase .start Role.start roles
  let after := { d with state := .ready }
  s.save after
  return after

end Surroundings

end BenchCluster
