import BenchCluster.Store
import BenchCluster.Config.Plan
import BenchCluster.Role.Script
import BenchCluster.Cloud.Command

/-! # The orchestrator's surroundings

What the operations on clusters need from outside, how they fail, and the worker pool. The state
of the world outside is a parameter; everything that an operation sees or changes of it goes
through the fields of `Surroundings`.
-/

namespace BenchCluster

/-- The phases in which several roles or instances are worked on. -/
inductive Phase
  | configure
  | install
  | stop
  | start
  deriving DecidableEq, Repr

def Phase.name : Phase → String
  | .configure => "configure"
  | .install => "install"
  | .stop => "stop"
  | .start => "start"

/-- The ways in which operations on clusters fail. -/
inductive OrchestratorError
  | store (e : StoreError)
  | config (e : ConfigError)
  | topology (e : TopologyError)
  | transition (e : IllegalTransition)
  | cloud (e : CloudError)
  | role (e : RoleError)
  | remote (e : RemoteError)
  | alreadyConfigured (cluster : String)
  | holdsResources (cluster : String) (state : ClusterState)
  | alreadyRunning (cluster environment : String)
  | unknownCloud (environment cloud : String)
  | unlistedEnvironment (environment : String)
  | noAddress (member : String)
  | allocationFailed (cluster : String) (failed : List String)
  | phaseFailed (phase : Phase) (failures : List String)
  | cleanupFailed (cluster : String) (remaining : List String)
  | interrupted
  deriving DecidableEq, Repr

def OrchestratorError.message : OrchestratorError → String
  | .store e => e.message
  | .config e => e.message
  | .topology e => e.message
  | .transition e => e.message
  | .cloud e => e.message
  | .role e => e.message
  | .remote e => e.message
  | .alreadyConfigured cluster =>
    s!"cluster '{cluster}' is already configured; use --force to configure it again"
  | .holdsResources cluster state =>
    s!"cluster '{cluster}' is {state.name} and may hold machines or volumes; clean it first"
  | .alreadyRunning cluster environment =>
    s!"cluster '{cluster}' is already running in environment '{environment}'"
  | .unknownCloud environment name =>
    s!"environment '{environment}' uses cloud '{name}', which is not configured"
  | .unlistedEnvironment environment => s!"environment '{environment}' is not listed"
  | .noAddress member => s!"member '{member}' has no address"
  | .allocationFailed cluster failed =>
    s!"allocation of cluster '{cluster}' failed for: " ++ ", ".intercalate failed
  | .phaseFailed phase failures => s!"{phase.name} failed: " ++ "; ".intercalate failures
  | .cleanupFailed cluster remaining =>
    s!"could not tear down all of cluster '{cluster}'; still present: " ++
      ", ".intercalate remaining
  | .interrupted => "interrupted"

/-- Access to the stored descriptors. -/
structure StoreAccess (ω : Type) where
  contains : String → StateM ω (Except StoreError Bool)
  load : String → StateM ω (Except StoreError ClusterDescriptor)
  save : ClusterDescriptor → StateM ω (Except StoreError Unit)
  delete : String → StateM ω (Except StoreError Unit)

def StoreAccess.ofFiles {ω : Type} (files : ω → FileTree) (withFiles : ω → FileTree → ω)
    (store : Store) : StoreAccess ω :=
  { contains := fun cluster w => (store.contains (files w) cluster, w)
    load := fun cluster w => (store.load (files w) cluster, w)
    save := fun d w =>
      let (result, after) := store.save (files w) d
      (result, withFiles w after)
    delete := fun cluster w =>
      let (result, after) := store.delete (files w) cluster
      (result, withFiles w after) }

/-- The order in which the jobs of a pool are done. -/
structure Arrival where
  arrange : {α : Type} → List α → List α
  perm : ∀ {α : Type} (l : List α), (arrange l).Perm l

def Arrival.inOrder : Arrival := ⟨fun l => l, fun _ => .refl _⟩

instance : Inhabited Arrival := ⟨.inOrder⟩

/-- The pools of jobs that operations run. -/
inductive Pool
  | launches
  | volumes
  | terminations
  | destructions
  | stops
  | starts
  deriving DecidableEq, Repr

/-- What the operations of one invocation see of the world outside. -/
structure Surroundings (ω : Type) where
  store : StoreAccess ω
  /-- Whether the user has asked to stop. -/
  interrupted : ω → Bool
  /-- What goes on outside while a job waits for its turn; the user may ask to stop meanwhile. -/
  meanwhile : ω → ω := id
  /-- The time at which descriptors are created. -/
  now : ω → Timestamp
  settings : Settings
  /-- The clouds that this invocation knows. -/
  cloudConfigs : Dict CloudConfig
  clouds : CloudRegistry ω
  roles : RoleRegistry ω
  executor : RemoteExecutor ω
  /-- The port of hosts whose address names none. -/
  defaultPort : UInt16 := Host.standardPort
  /-- The order in which the jobs of each pool are done. -/
  arrival : Pool → Arrival := fun _ => .inOrder

/-- A part of an operation: it may fail, and change the world outside in any case. -/
abbrev Work (ω α : Type) := ExceptT OrchestratorError (Action ω) α

namespace Work

variable {ω α ε : Type}

def ofAction (act : Action ω α) : Work ω α := ExceptT.lift act

def ofExcept (wrap : ε → OrchestratorError) (x : Except ε α) : Work ω α :=
  ExceptT.mk (pure (x.mapError wrap))

def ofFallible (wrap : ε → OrchestratorError) (act : Action ω (Except ε α)) : Work ω α :=
  ExceptT.mk do return (← act).mapError wrap

end Work

namespace Surroundings

variable {ω : Type}

/-- Fails if the user has asked to stop. -/
def checkInterrupted (s : Surroundings ω) : Work ω Unit := do
  let inv ← Work.ofAction get
  if s.interrupted inv.outside then throw .interrupted

def load (s : Surroundings ω) (cluster : String) : Work ω ClusterDescriptor :=
  Work.ofFallible .store (Action.outside (s.store.load cluster))

def save (s : Surroundings ω) (d : ClusterDescriptor) : Work ω Unit :=
  Work.ofFallible .store (Action.outside (s.store.save d))

/-- Loads the descriptor of a cluster whose state allows an operation. -/
def loadFor (s : Surroundings ω) (cluster : String) (operation : Operation) :
    Work ω ClusterDescriptor := do
  let d ← s.load cluster
  Work.ofExcept .transition (d.state.check cluster operation)
  s.checkInterrupted
  return d

/-! ## Clouds -/

def buildCloud (s : Surroundings ω) (configs : Dict CloudConfig) (env : Environment) :
    Except OrchestratorError (Cloud ω) :=
  match configs.find? env.cloud with
  | none => .error (.unknownCloud env.name env.cloud)
  | some config => (s.clouds.build env config s.settings).mapError .cloud

/-- The clients for environments, each under its name. -/
def cloudsFor (s : Surroundings ω) (environments : List Environment) :
    Except OrchestratorError (Dict (Cloud ω)) := do
  let clouds ← environments.mapM fun env => do
    let cloud ← s.buildCloud s.cloudConfigs env
    return (env.name, cloud)
  return Dict.ofList clouds

end Surroundings

def cloudOf {ω : Type} (clouds : Dict (Cloud ω)) (environment : String) :
    Except OrchestratorError (Cloud ω) :=
  match clouds.find? environment with
  | some cloud => .ok cloud
  | none => .error (.unlistedEnvironment environment)

/-! ## The worker pool -/

structure Job (ω α : Type) where
  name : String
  run : Action ω (Except CloudError α)

abbrev JobResult (α : Type) := String × Except OrchestratorError α

namespace Surroundings

variable {ω α : Type}

/-- The invocation in which the turn of a job has come. -/
def waited (s : Surroundings ω) (inv : Invocation ω) : Invocation ω :=
  { inv with outside := s.meanwhile inv.outside }

/-- Runs one job when its turn has come, unless the user has asked to stop by then. -/
def runJob (s : Surroundings ω) (job : Job ω α) : Action ω (JobResult α) := do
  modify s.waited
  let inv ← get
  if s.interrupted inv.outside then return (job.name, .error .interrupted)
  else
    let result ← job.run
    return (job.name, result.mapError .cloud)

/-- Results as the pool hands them out: by name, and in the order of their arrival within one
name. -/
def sortResults (results : List (JobResult α)) : List (JobResult α) :=
  results.mergeSort fun a b => decide (a.1 ≤ b.1)

/-- Runs jobs and waits for all of them. -/
def inPool (s : Surroundings ω) (pool : Pool) (jobs : List (Job ω α)) :
    Action ω (List (JobResult α)) := do
  let results ← jobs.mapM s.runJob
  return sortResults ((s.arrival pool).arrange results)

end Surroundings

def failuresOf {α : Type} (results : List (JobResult α)) : List String :=
  results.filterMap fun (name, result) =>
    match result with
    | .ok _ => none
    | .error e => some (name ++ ": " ++ e.message)

end BenchCluster
