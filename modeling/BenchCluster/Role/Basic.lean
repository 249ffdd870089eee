import BenchCluster.Remote.Executor
import BenchCluster.Cluster.Target

/-! # Roles

What can be done with the members of a role, and the registry of role implementations.
-/

namespace BenchCluster

inductive RoleError
  | unknownImplementation (name : String)
  | invalidParameter (role key value : String)
  | noMembers (role : String)
  | remote (role step : String) (source : RemoteError)
  deriving DecidableEq, Repr

def RoleError.message : RoleError → String
  | .unknownImplementation name => s!"no role implementation named '{name}' is registered"
  | .invalidParameter role key value =>
    s!"role '{role}' has an invalid '{key}' parameter: '{value}'"
  | .noMembers role => s!"role '{role}' has no members"
  | .remote role step source => s!"{step} of role '{role}' failed: {source.message}"

/-- What a role is built from; the hosts of the group are its members in instance order. -/
structure RoleContext where
  cluster : String
  environment : Environment
  params : ComponentParams
  group : HostGroup
  deriving DecidableEq, Repr, Inhabited

/-- What can be done with a role. A role that stands in front of others has a proxy side, which is
pointed at a target and answers with the target that clients should use instead. -/
structure Role (ω : Type) where
  name : String
  configure : Action ω (Except RoleError Unit)
  install : Action ω (Except RoleError (Option ConnectionTarget))
  clean : Action ω (Except RoleError Unit)
  start : Action ω (Except RoleError Unit)
  stop : Action ω (Except RoleError Unit)
  proxy : Option (ConnectionTarget → Action ω (Except RoleError ConnectionTarget)) := none

/-- Builds a role, or says why it cannot be built. -/
abbrev RoleConstructor (ω : Type) := RoleContext → Except RoleError (Role ω)

abbrev RoleRegistry (ω : Type) := Dict (RoleConstructor ω)

def RoleRegistry.build {ω : Type} (registry : RoleRegistry ω) (context : RoleContext) :
    Except RoleError (Role ω) :=
  match Dict.find? registry context.params.implementation with
  | some make => make context
  | none => .error (.unknownImplementation context.params.implementation)

end BenchCluster
