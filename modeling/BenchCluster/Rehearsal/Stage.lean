import BenchCluster.Rehearsal.Provider
import BenchCluster.Rehearsal.Network
import BenchCluster.Rehearsal.Fault
import BenchCluster.Rehearsal.Shell.Run
import BenchCluster.Orchestrator.Run
import BenchCluster.Remote.Ssh

/-! # The stage of a rehearsal

The whole world outside an invocation, as a value: files, variables, the provider, the network, the
rules for faults and the calls made so far.
-/

namespace BenchCluster.Rehearsal

inductive HostCall
  | exec (host : String) (elevated : Bool) (script : String)
  | copy (host source target : String)
  deriving DecidableEq, Repr

/-- The world of a rehearsal. -/
structure Stage where
  files : FileTree := .empty
  bindings : Dict String := ∅
  /-- Whether only the programs of the rehearsal can be found. -/
  bare : Bool := false
  provider : Provider := {}
  network : Network := {}
  cloudRules : List (CountedRule CloudFault) := []
  remoteRules : List (CountedRule DelayedFault) := []
  interrupted : Bool := false
  /-- The number of the current invocation. -/
  invocation : Nat := 0
  cloudLog : List String := []
  remoteLog : List (String × HostCall) := []

instance : Inhabited Stage := ⟨{}⟩

namespace Stage

def defaultPort (s : Stage) : UInt16 :=
  Host.portOfVariable (s.bindings.find? Host.portVariable)

def interrupt (s : Stage) : Stage := { s with interrupted := true }

def onProvider {α : Type} (act : StateM Provider α) : StateM Stage α := fun s =>
  let (a, p) := act s.provider
  (a, { s with provider := p })

def onNetwork {α : Type} (act : StateM Network α) : StateM Stage α := fun s =>
  let (a, n) := act s.network
  (a, { s with network := n })

/-! ## Files and programs -/

def programs : Programs Stage :=
  { run := fun c limit s =>
      let (reply, files) := Shell.callProgram s.files s.bindings s.bare limit c
      (reply, { s with files := files }) }

def sshTransport (o : SshOptions) : Transport Stage :=
  Ssh.transport programs (fun path s => (s.files.pathExists path, s)) o

def storeAccess : Store → StoreAccess Stage :=
  .ofFiles Stage.files fun s files => { s with files := files }

/-! ## The provider behind its faults -/

/-- Notes a call and looks for a rule that it falls under. -/
def beginCloudCall (environment : String) (call : CloudCall) (name : String) :
    StateM Stage (Option CloudFault) := fun s =>
  let line := environment ++ " " ++ call.name ++ " " ++ name
  let (fault, rules) := CountedRule.take "" call.name name "" s.cloudRules
  let s := { s with cloudLog := s.cloudLog ++ [line], cloudRules := rules }
  match fault with
  | some .interrupt => (fault, s.interrupt)
  | _ => (fault, s)

def faultError? (call : CloudCall) : CloudFault → Option CloudError
  | .timeout => some (.timedOut ("fake " ++ call.name) (.ofMillis 1500))
  | .fail status stderr => some (.commandFailed ("fake " ++ call.name) status stderr)
  | _ => none

def overlay (fields : List (String × Data)) : Data → Data
  | .table entries =>
    .table (entries.map fun e => (e.1, ((fields.find? fun f => f.1 = e.1).map Prod.snd).getD e.2))
  | d => d

def patchMachine (fault : Option CloudFault) (m : Machine) : Machine :=
  match fault with
  | some (.machine fields) => (Machine.decode (overlay fields m.encode)).getD m
  | _ => m

def patchVolume (fault : Option CloudFault) (v : Volume) : Volume :=
  match fault with
  | some (.volume fields) => (Volume.decode (overlay fields v.encode)).getD v
  | _ => v

/-- Makes a call unless a fault stands in its way. -/
def guarded {α : Type} (environment : String) (call : CloudCall) (name : String)
    (act : Option CloudFault → StateM Stage (Except CloudError α)) :
    Action Stage (Except CloudError α) :=
  Action.outside do
    let fault ← beginCloudCall environment call name
    match fault.bind (faultError? call) with
    | some e => return .error e
    | none => act fault

/-- Launches an instance; afterwards the user may ask to stop. -/
def launch (r : LaunchRequest) : StateM Stage (Option Machine) := do
  let m ← onProvider (Provider.launch r)
  let s ← get
  if m.isSome && s.provider.interruptOnLaunch = some s.invocation then
    set s.interrupt
  return m

def cloud (environment : String) : Cloud Stage :=
  { launchInstance := fun r => guarded environment .launch r.name fun fault => do
      match fault with
      | some .noMachine => return .ok none
      | _ => return .ok ((← launch r).map (patchMachine fault))
    terminateInstance := fun m => guarded environment .terminate m.name fun _ =>
      onProvider (Provider.terminate m)
    startInstance := fun m => guarded environment .start m.name fun fault => do
      return .ok (patchMachine fault (← onProvider (Provider.start m)))
    stopInstance := fun m => guarded environment .stop m.name fun _ => do
      return .ok (← onProvider (Provider.stop m))
    launchStorage := fun r => guarded environment .launchStorage r.spec.name fun fault => do
      return .ok (patchVolume fault (← onProvider (Provider.createVolume r)))
    destroyStorage := fun v => guarded environment .destroyStorage v.name fun _ => do
      return .ok (← onProvider (Provider.destroyVolume v))
    isRunning := fun cluster => guarded environment .isRunning cluster fun fault => do
      match fault with
      | some (.running answer) => return .ok answer
      | _ => return .ok (← get).provider.running }

def client : String := "fake"

def clouds (draws : Draws) : CloudRegistry Stage :=
  Dict.insert (CloudRegistry.builtin programs draws) client fun env _ _ => .ok (cloud env.name)

/-! ## The network behind its faults -/

def beginHostCall (h : Host) (kind text : String) (call : HostCall) :
    StateM Stage (Option DelayedFault) := fun s =>
  let (fault, rules) := CountedRule.take h.name kind h.name text s.remoteRules
  (fault, { s with remoteLog := s.remoteLog ++ [(h.name, call)], remoteRules := rules })

def later {α : Type} (delay : Duration) : Reply α → Reply α
  | .ended after a => .ended (delay + after) a
  | .hanging => .hanging

/-- Makes a call under a fault. Nothing happens after the limit. -/
def underFault {α : Type} (h : Host) (limit : Duration) (fault : Option DelayedFault)
    (ofOutput : CommandOutput → Except TransportError α)
    (act : StateM Stage (Reply (Except TransportError α))) :
    StateM Stage (Reply (Except TransportError α)) := do
  match fault with
  | none => act
  | some f =>
    if limit < f.delay then return .hanging
    else match f.fault with
      | .output o => return .ended f.delay (ofOutput o)
      | .connection text => return .ended f.delay (.error (.connection h.toText text))
      | .hang => return .hanging
      | .spawn => return .ended f.delay (.error (.spawn "ssh"))
      | .io => return .ended f.delay (.error (.io h.toText "pipe closed"))
      | .missing => return .ended f.delay (.error (.missingFile "lost.tar"))
      | .interrupt =>
        modify interrupt
        return later f.delay (← act)
      | .goOn => return later f.delay (← act)

def addressee (h : Host) : String := h.destination ++ ":" ++ toString h.port.toNat

def transport : Transport Stage :=
  { exec := fun h script elevated limit => do
      let fault ← beginHostCall h "exec" script (.exec (addressee h) elevated script)
      underFault h limit fault .ok (onNetwork (Network.exec h script elevated))
    copy := fun h source target limit => do
      let fault ← beginHostCall h "copy" target (.copy (addressee h) source target)
      underFault h limit fault (fun _ => .ok ()) (onNetwork (Network.copy h source target)) }

/-! ## Surroundings -/

def executor : RemoteExecutor Stage := { transport := transport }

def surroundings (s : Stage) (store : Store) (settings : Settings)
    (cloudConfigs : Dict CloudConfig) : Surroundings Stage :=
  { store := storeAccess store
    interrupted := Stage.interrupted
    now := fun _ => .epoch
    settings := settings
    cloudConfigs := cloudConfigs
    clouds := clouds .zero
    roles := .builtin executor
    executor := executor
    defaultPort := s.defaultPort }

end Stage

end BenchCluster.Rehearsal
