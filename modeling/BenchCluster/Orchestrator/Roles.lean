import BenchCluster.Orchestrator.Basic

/-! # The roles of a cluster at work

Building the roles of a descriptor over their members, and running one step on all of them.
-/

namespace BenchCluster

structure RoleEntry (ω : Type) where
  role : String
  environment : String
  implementation : Role ω

/-- The hosts of machines, all of which must have an address. -/
def hostsOf (defaultPort : UInt16) (machines : List Machine) :
    Except OrchestratorError (List Host) :=
  machines.mapM fun m =>
    match Host.ofMachine? defaultPort m with
    | some h => .ok h
    | none => .error (.noAddress m.name)

namespace Surroundings

variable {ω : Type}

def execOptions (s : Surroundings ω) (elevated : Bool) : ExecOptions :=
  { timeout := s.settings.commandTimeout, elevated := elevated, retry := s.settings.remoteRetry }

/-- The value of a role's parameter `sudo` that makes its scripts run without it. -/
def noSudo : String := "false"

/-- Builds a role over the members among its instances. -/
def buildRole (s : Surroundings ω) (d : ClusterDescriptor) (role : String)
    (instances : List String) : Except OrchestratorError (RoleEntry ω) :=
  match d.component? role with
  | none => .error (.topology (.missingRole role))
  | some (env, params) => do
    let members := instances.filterMap d.members.find?
    let hosts ← hostsOf s.defaultPort members
    let elevated := params.parameter "sudo" ≠ some noSudo
    let context : RoleContext :=
      { cluster := d.clusterName, environment := env, params := params
        group := ⟨hosts, s.execOptions elevated⟩ }
    let implementation ← (s.roles.build context).mapError .role
    return ⟨role, env.name, implementation⟩

/-- Builds every role of a tree, in level order. -/
def buildRoles (s : Surroundings ω) (d : ClusterDescriptor) (tree : TopologyTree) :
    Except OrchestratorError (List (RoleEntry ω)) :=
  tree.groups.mapM fun (role, instances) => s.buildRole d role instances

def rolesOf (s : Surroundings ω) (d : ClusterDescriptor) :
    Except OrchestratorError (TopologyTree × List (RoleEntry ω)) := do
  let tree ← (TopologyTree.restore d.topology d.topologyMap).mapError .topology
  let roles ← s.buildRoles d tree
  return (tree, roles)

end Surroundings

variable {ω : Type}

/-- Runs a step on every role, whatever happens on the others. -/
def onEveryRole {α : Type} (step : Role ω → Action ω (Except RoleError α))
    (roles : List (RoleEntry ω)) : Action ω (List (String × Except RoleError α)) :=
  roles.mapM fun entry => do
    let result ← step entry.implementation
    return (entry.role, result)

def roleFailures {α : Type} (results : List (String × Except RoleError α)) : List String :=
  results.filterMap fun (role, result) =>
    match result with
    | .ok _ => none
    | .error e => some (role ++ ": " ++ e.message)

def checkPhase {α : Type} (phase : Phase) (results : List (String × Except RoleError α)) :
    Except OrchestratorError Unit :=
  let failures := roleFailures results
  if failures.isEmpty then .ok () else .error (.phaseFailed phase failures)

def runPhase (phase : Phase) (step : Role ω → Action ω (Except RoleError Unit))
    (roles : List (RoleEntry ω)) : Work ω Unit := do
  let results ← Work.ofAction (onEveryRole step roles)
  Work.ofExcept id (checkPhase phase results)

end BenchCluster
