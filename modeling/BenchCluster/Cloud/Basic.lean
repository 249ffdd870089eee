import BenchCluster.Config.Documents
import BenchCluster.Config.Settings
import BenchCluster.Metrics

/-! # Clouds

What can be asked of a cloud, and the registry of cloud clients.
-/

namespace BenchCluster

/-- The ways in which a call of a cloud fails. -/
inductive CloudError
  | unknownClient (name : String)
  | missingCommand (cloud command : String)
  | unsupported (client operation : String)
  | spawn (command : String)
  | commandFailed (command : String) (status : Option Int) (stderr : String)
  | timedOut (command : String) (timeout : Duration)
  | exhausted (attempts : Nat) (last : CloudError)
  | malformed (command : String)
  deriving DecidableEq, Repr

namespace CloudError

def statusText : Option Int → String
  | some code => s!"Some({code})"
  | none => "None"

def message : CloudError → String
  | .unknownClient name => s!"no cloud client named '{name}' is registered"
  | .missingCommand cloud command => s!"cloud '{cloud}' has no '{command}' command configured"
  | .unsupported client operation => s!"cloud client '{client}' does not support {operation}"
  | .spawn command => s!"could not run '{command}'"
  | .commandFailed command status stderr =>
    s!"'{command}' exited with status {statusText status}: {stderr}"
  | .timedOut command timeout => s!"'{command}' timed out after {timeout.toText}"
  | .exhausted attempts last => s!"gave up after {attempts} attempt(s): {last.message}"
  | .malformed command => s!"could not parse the output of '{command}'"

/-- The exit status with which a command asks to be tried again. -/
def tryAgainStatus : Int := 75

/-- Whether another attempt might succeed. -/
def isTransient : CloudError → Bool
  | .timedOut _ _ => true
  | .commandFailed _ status _ => status = some tryAgainStatus
  | _ => false

end CloudError

/-- What a cloud is told to launch an instance. The index is the position of the instance among
those of its role. -/
structure LaunchRequest where
  cluster : String
  name : String
  index : Nat
  environment : Environment
  params : ComponentParams
  deriving DecidableEq, Repr, Inhabited

def LaunchRequest.machine (r : LaunchRequest) (id : String) : Machine :=
  { id := id
    name := r.name
    role := r.params.role
    implementation := r.params.implementation
    environment := r.environment.name
    user := r.params.user
    managed := r.params.managed
    provisioned := false
    ephemeral := r.params.ephemeral }

structure StorageRequest where
  cluster : String
  environment : Environment
  spec : VolumeSpec
  deriving DecidableEq, Repr, Inhabited

/-- What can be asked of a cloud. A launch answers with no machine if the provider has none. -/
structure Cloud (ω : Type) where
  launchInstance : LaunchRequest → Action ω (Except CloudError (Option Machine))
  terminateInstance : Machine → Action ω (Except CloudError Unit)
  startInstance : Machine → Action ω (Except CloudError Machine)
  stopInstance : Machine → Action ω (Except CloudError Unit)
  launchStorage : StorageRequest → Action ω (Except CloudError Volume)
  destroyStorage : Volume → Action ω (Except CloudError Unit)
  isRunning : String → Action ω (Except CloudError Bool)

/-- Makes the client for an environment, or says why it cannot be made. -/
abbrev CloudConstructor (ω : Type) :=
  Environment → CloudConfig → Settings → Except CloudError (Cloud ω)

abbrev CloudRegistry (ω : Type) := Dict (CloudConstructor ω)

def CloudRegistry.build {ω : Type} (registry : CloudRegistry ω) (env : Environment)
    (config : CloudConfig) (settings : Settings) : Except CloudError (Cloud ω) :=
  match Dict.find? registry env.client with
  | some make => make env config settings
  | none => .error (.unknownClient env.client)

end BenchCluster
