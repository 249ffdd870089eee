import BenchCluster.Orchestrator.Basic

/-! # Allocating the members of a cluster

Every instance that has no machine yet gets one, and every environment its volumes. What has been
obtained is kept even if something else has failed.
-/

namespace BenchCluster

/-- What becomes of one missing instance: an external machine, nothing because its role lists no
hosts, or a launch. -/
inductive Provision
  | external (machine : Machine)
  | lacking (name : String)
  | launch (request : LaunchRequest)
  deriving Repr

namespace Provision

def machine? : Provision → Option Machine
  | .external m => some m
  | _ => none

def lacking? : Provision → Option String
  | .lacking name => some name
  | _ => none

def request? : Provision → Option LaunchRequest
  | .launch r => some r
  | _ => none

end Provision

namespace ClusterDescriptor

def launchRequest (d : ClusterDescriptor) (cluster name role : String) (env : Environment)
    (params : ComponentParams) : LaunchRequest :=
  { cluster := cluster
    name := name
    index := ((d.instancesOf role).findIdx? fun n => n = name).getD 0
    environment := env
    params := params }

def provision (d : ClusterDescriptor) (cluster name role : String) :
    Except OrchestratorError Provision :=
  match d.component? role with
  | none => .error (.topology (.missingRole role))
  | some (env, params) =>
    let request := d.launchRequest cluster name role env params
    if params.managed then .ok (.launch request)
    else match External.machine? request with
      | some m => .ok (.external m)
      | none => .ok (.lacking name)

def provisions (d : ClusterDescriptor) (cluster : String) :
    Except OrchestratorError (List Provision) :=
  d.missingInstances.mapM fun (name, role) => d.provision cluster name role

/-- Whether an environment has provisioned members, or will have them after the launches. -/
def needsVolumes (d : ClusterDescriptor) (launches : List LaunchRequest) (env : Environment) :
    Bool :=
  launches.any (fun r => r.environment.name = env.name) ||
    (d.membersIn env.name).any Machine.provisioned

def hasVolume (d : ClusterDescriptor) (env : Environment) (spec : VolumeSpec) : Bool :=
  d.sharedStorage.any fun v => v.environment = env.name && v.name = spec.name

def missingVolumes (d : ClusterDescriptor) (cluster : String) (launches : List LaunchRequest) :
    List StorageRequest :=
  (d.environments.filter (d.needsVolumes launches)).flatMap fun env =>
    (d.volumeSpecs.filter fun spec => !d.hasVolume env spec).map fun spec =>
      { cluster := cluster, environment := env, spec := spec }

end ClusterDescriptor

def StorageRequest.label (r : StorageRequest) : String := r.environment.name ++ "/" ++ r.spec.name

/-- The machine that a launch has brought, under the name of its instance. -/
def launchedMachine? (r : JobResult (Option Machine)) : Option Machine :=
  match r.2 with
  | .ok (some m) => some { m with name := r.1 }
  | _ => none

def createdVolume? (r : JobResult Volume) : Option Volume :=
  match r.2 with
  | .ok v => some v
  | .error _ => none

/-- All that an allocation has brought: the provisions, and the results of the launches and of
the volumes. -/
structure Allocation where
  provisions : List Provision
  launches : List (JobResult (Option Machine))
  volumes : List (JobResult Volume)

namespace Allocation

def requested (a : Allocation) : List String :=
  (a.provisions.filterMap Provision.request?).map LaunchRequest.name

def machines (a : Allocation) : List Machine :=
  a.provisions.filterMap Provision.machine? ++ a.launches.filterMap launchedMachine?

/-- The names of what could not be obtained, in order. -/
def failed (a : Allocation) : List String :=
  let succeeded := (a.launches.filterMap launchedMachine?).map Machine.name
  let volumes := a.volumes.filterMap fun (name, result) => if result.isOk then none else some name
  (a.provisions.filterMap Provision.lacking? ++
    a.requested.filter (fun name => !succeeded.contains name) ++ volumes).mergeSort
      fun x y => decide (x ≤ y)

def record (a : Allocation) (d : ClusterDescriptor) : ClusterDescriptor :=
  { d with
    members := a.machines.foldl (fun members m => members.insert m.name m) d.members
    sharedStorage := d.sharedStorage ++ a.volumes.filterMap createdVolume?
    state := if a.failed.isEmpty then .allocated else .failed }

end Allocation

namespace Surroundings

variable {ω : Type}

def launchJob (clouds : Dict (Cloud ω)) (r : LaunchRequest) :
    Except OrchestratorError (Job ω (Option Machine)) := do
  let cloud ← cloudOf clouds r.environment.name
  return ⟨r.name, cloud.launchInstance r⟩

def volumeJob (clouds : Dict (Cloud ω)) (r : StorageRequest) :
    Except OrchestratorError (Job ω Volume) := do
  let cloud ← cloudOf clouds r.environment.name
  return ⟨r.label, cloud.launchStorage r⟩

/-- Launches every instance that has no machine yet and creates the volumes that are missing. -/
def allocate (s : Surroundings ω) (cluster : String) (force : Bool) :
    Work ω ClusterDescriptor := do
  let d ← s.loadFor cluster (.allocate force)
  let clouds ← Work.ofExcept id (s.cloudsFor d.environments)
  let provisions ← Work.ofExcept id (d.provisions cluster)
  let requests := provisions.filterMap Provision.request?
  let launches ← Work.ofExcept id (requests.mapM (launchJob clouds))
  let volumes ← Work.ofExcept id ((d.missingVolumes cluster requests).mapM (volumeJob clouds))
  let launched ← Work.ofAction (s.inPool .launches launches)
  let created ← Work.ofAction (s.inPool .volumes volumes)
  let allocation : Allocation := ⟨provisions, launched, created⟩
  let after := allocation.record d
  -- What has been obtained is stored even if something could not be.
  s.save after
  if allocation.failed.isEmpty then return after
  else throw (.allocationFailed cluster allocation.failed)

end Surroundings

end BenchCluster
