import BenchCluster.Cloud.External
import BenchCluster.Program
import BenchCluster.Text.Substitution

/-! # Clouds behind a command line

A client that runs a configured command for every call and reads what it prints. Commands that ask
for it are tried again.
-/

namespace BenchCluster

abbrev Vars := Dict String

/-- Replaces the placeholders of a template by their values, in the order of the keys. -/
def Vars.render (vars : Vars) (template : String) : String :=
  Text.fill (Dict.entries vars) template

/-- A client for one environment. -/
structure CommandCloud where
  environment : Environment
  commands : Dict String
  timeout : Duration
  retry : RetryPolicy
  deriving Repr

namespace CommandCloud

def client : String := "command"

def ofConfig (env : Environment) (config : CloudConfig) (settings : Settings) : CommandCloud :=
  { environment := env, commands := config.commands, timeout := settings.cloudTimeout
    retry := settings.cloudRetry }

/-- The calls that a command can be configured for. -/
inductive Call
  | launch
  | terminate
  | start
  | stop
  | launchStorage
  | destroyStorage
  | isRunning
  deriving DecidableEq, Repr

def Call.key : Call → String
  | .launch => "launch"
  | .terminate => "terminate"
  | .start => "start"
  | .stop => "stop"
  | .launchStorage => "launch_storage"
  | .destroyStorage => "destroy_storage"
  | .isRunning => "is_running"

def baseVars (c : CommandCloud) : Vars :=
  Dict.ofList [("cloud", c.environment.cloud), ("region", c.environment.region),
    ("environment", c.environment.name)]

/-- Adds values, which replace those under the same keys. -/
def withVars (vars : Vars) (more : List (String × String)) : Vars :=
  more.foldl (fun vars (key, value) => Dict.insert vars key value) vars

def machineVars (c : CommandCloud) (m : Machine) : Vars :=
  withVars c.baseVars [("id", m.id), ("name", m.name), ("role", m.role)]

def launchVars (c : CommandCloud) (r : LaunchRequest) : Vars :=
  withVars (Dict.union c.baseVars r.params.parameters)
    [("cluster", r.cluster), ("name", r.name), ("role", r.params.role),
      ("index", toString r.index), ("instance_type", r.params.instanceType.getD ""),
      ("image", r.params.image.getD ""), ("user", r.params.user.getD "")]

def storageVars (c : CommandCloud) (r : StorageRequest) : Vars :=
  withVars c.baseVars [("cluster", r.cluster), ("volume", r.spec.name),
    ("size_gb", toString r.spec.sizeGb.toNat), ("mount", r.spec.mount.getD "")]

def volumeVars (c : CommandCloud) (v : Volume) : Vars :=
  withVars c.baseVars [("id", v.id), ("volume", v.name)]

def label (c : CommandCloud) (call : Call) : String := c.environment.cloud ++ " " ++ call.key

/-- What the end of a command means. -/
def resultOf (c : CommandCloud) (call : Call) (reply : Timed (Option (Option ProgramOutput))) :
    Except CloudError String :=
  match reply.result with
  | none => .error (.timedOut (c.label call) c.timeout)
  | some none => .error (.spawn (c.label call))
  | some (some o) =>
    if o.success then .ok o.text
    else .error (.commandFailed (c.label call) o.exitStatus (Text.trim o.errorText))

def finalError : RetryError CloudError → CloudError
  | .exhausted attempts _ last => .exhausted attempts last
  | .permanent e => e

/-- What a launched or started instance prints about itself. -/
structure InstanceOutput where
  id : String
  publicAddress : Option String
  privateAddress : Option String
  deriving DecidableEq, Repr

def InstanceOutput.decode : Decoder InstanceOutput := fun d => do
  let r ← Record.read? false ["id", "public_address", "private_address"] d
  return {
    id := ← r.required "id" .text
    publicAddress := ← r.optional "public_address" .text
    privateAddress := ← r.optional "private_address" .text }

def decodeVolumeId : Decoder String := fun d => do
  let r ← Record.read? false ["id"] d
  r.required "id" .text

def parse {α : Type} (c : CommandCloud) (call : Call) (decode : Decoder α) (text : String) :
    Except CloudError α :=
  match (Json.read? text).bind decode with
  | some a => .ok a
  | none => .error (.malformed (c.label call))

def launched (c : CommandCloud) (r : LaunchRequest) (printed : String) :
    Except CloudError (Option Machine) := do
  let text := Text.trim printed
  if text = "" ∨ text = "null" then return none
  else
    let o ← c.parse .launch InstanceOutput.decode text
    return some { r.machine o.id with
      publicAddress := o.publicAddress, privateAddress := o.privateAddress, provisioned := true }

/-- The machine after its start command has printed something; addresses that are not printed
stay. -/
def started (c : CommandCloud) (m : Machine) (printed : String) : Except CloudError Machine := do
  let text := Text.trim printed
  if text = "" then return m
  else
    let o ← c.parse .start InstanceOutput.decode text
    return { m with
      publicAddress := o.publicAddress <|> m.publicAddress
      privateAddress := o.privateAddress <|> m.privateAddress }

def createdVolume (c : CommandCloud) (r : StorageRequest) (printed : String) :
    Except CloudError Volume := do
  let id ← c.parse .launchStorage decodeVolumeId (Text.trim printed)
  return {
    id := id, name := r.spec.name, environment := r.environment.name
    sizeGb := r.spec.sizeGb, mount := r.spec.mount, shared := true }

/-- The answer that a command has printed; nothing means no. -/
def runningAnswer (c : CommandCloud) (printed : String) : Except CloudError Bool :=
  let text := Text.trim printed
  if text = "" then .ok false else c.parse .isRunning .bool text

variable {ω : Type}

/-- Runs the command of a call once, and counts it. -/
def invokeOnce (c : CommandCloud) (programs : Programs ω) (call : Call) (command : String) :
    Action ω (Timed (Except CloudError String)) := do
  Action.count fun m => { m with cloudCalls := m.cloudCalls + 1 }
  let reply ← Action.outside (programs.run ⟨"sh", ["-c", command], none⟩ c.timeout)
  let seen := reply.within c.timeout
  match c.resultOf call seen with
  | .ok printed => return ⟨.ok printed, seen.took⟩
  | .error e =>
    Action.count fun m => { m with cloudFailures := m.cloudFailures + 1 }
    return ⟨.error e, seen.took⟩

/-- Runs the command of a call, again and again if it asks for that. -/
def invoke (c : CommandCloud) (programs : Programs ω) (draws : Draws) (call : Call) (vars : Vars) :
    Action ω (Except CloudError String) := do
  match c.commands.find? call.key with
  | none => return .error (.missingCommand c.environment.cloud call.key)
  | some template =>
    let tried ← BenchCluster.retry c.retry draws CloudError.isTransient fun _ =>
      c.invokeOnce programs call (vars.render template)
    return tried.result.mapError finalError

def toCloud (c : CommandCloud) (programs : Programs ω) (draws : Draws) : Cloud ω :=
  { launchInstance := fun r => do
      let printed ← c.invoke programs draws .launch (c.launchVars r)
      return printed.bind (c.launched r)
    terminateInstance := fun m => do
      let printed ← c.invoke programs draws .terminate (c.machineVars m)
      return printed.map fun _ => ()
    startInstance := fun m => do
      let printed ← c.invoke programs draws .start (c.machineVars m)
      return printed.bind (c.started m)
    stopInstance := fun m => do
      let printed ← c.invoke programs draws .stop (c.machineVars m)
      return printed.map fun _ => ()
    launchStorage := fun r => do
      let printed ← c.invoke programs draws .launchStorage (c.storageVars r)
      return printed.bind (c.createdVolume r)
    destroyStorage := fun v => do
      let printed ← c.invoke programs draws .destroyStorage (c.volumeVars v)
      return printed.map fun _ => ()
    isRunning := fun cluster => do
      if c.commands.contains Call.isRunning.key then
        let vars := withVars c.baseVars [("cluster", cluster)]
        let printed ← c.invoke programs draws .isRunning vars
        return printed.bind c.runningAnswer
      else return .ok false }

end CommandCloud

def CloudRegistry.builtin {ω : Type} (programs : Programs ω) (draws : Draws) : CloudRegistry ω :=
  Dict.ofList [
    (CommandCloud.client, fun env config settings =>
      .ok ((CommandCloud.ofConfig env config settings).toCloud programs draws)),
    (External.client, fun _ _ _ => .ok External.cloud)]

end BenchCluster
