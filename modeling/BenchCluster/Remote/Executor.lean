import BenchCluster.Remote.Command
import BenchCluster.Remote.Transport
import BenchCluster.Metrics
import BenchCluster.Text.Split

/-! # Running commands on hosts

Every host gets its own attempts. The results stand in the order of the hosts, and the error of a
call is that of the first host that has failed.
-/

namespace BenchCluster

/-- How commands are run. -/
structure ExecOptions where
  timeout : Duration := .ofSeconds 600
  elevated : Bool := false
  ignoreErrors : Bool := false
  retry : RetryPolicy := .remoteDefault
  deriving DecidableEq, Repr, Inhabited

structure HostOutput where
  hostname : String
  output : String
  exitStatus : Option Int
  failed : Bool
  deriving DecidableEq, Repr, Inhabited

/-- The ways in which a call on hosts fails. -/
inductive RemoteError
  | failed (host : String) (status : Option Int) (stderr : String)
  | timedOut (host : String) (timeout : Duration) (attempts : Nat)
  | unreachable (host : String) (source : TransportError)
  | noHosts
  deriving DecidableEq, Repr

def statusText : Option Int → String
  | some code => toString code
  | none => "killed by signal"

namespace RemoteError

def message : RemoteError → String
  | .failed host status stderr =>
    s!"command failed on {host} (exit status {statusText status}): {stderr}"
  | .timedOut host timeout attempts =>
    s!"command timed out on {host} after {attempts} attempt(s) of {timeout.toText}"
  | .unreachable host source => s!"could not reach {host}: {source.message}"
  | .noHosts => "no hosts to run on"

def host? : RemoteError → Option String
  | .failed host _ _ => some host
  | .timedOut host _ _ => some host
  | .unreachable host _ => some host
  | .noHosts => none

end RemoteError

/-- What goes wrong in a single attempt. -/
inductive AttemptError
  | timedOut
  | transport (e : TransportError)
  deriving DecidableEq, Repr

namespace AttemptError

/-- Whether another attempt might succeed. -/
def isTransient : AttemptError → Bool
  | .timedOut => true
  | .transport e => e.isTransient

def toRemote (h : Host) (timeout : Duration) (e : RetryError AttemptError) : RemoteError :=
  match e.inner with
  | .timedOut => .timedOut h.toText timeout e.attempts
  | .transport source => .unreachable h.toText source

/-- What an attempt amounts to when it is given up at the limit. -/
def ofReply {α : Type} (limit : Duration) (reply : Reply (Except TransportError α)) :
    Timed (Except AttemptError α) :=
  let seen := reply.within limit
  match seen.result with
  | none => ⟨.error .timedOut, seen.took⟩
  | some (.error e) => ⟨.error (.transport e), seen.took⟩
  | some (.ok a) => ⟨.ok a, seen.took⟩

end AttemptError

/-- Runs commands on hosts over a transport. The draws spread the delays between the attempts on
each host. -/
structure RemoteExecutor (ω : Type) where
  transport : Transport ω
  draws : Host → Draws := fun _ => .zero

/-- The answer of a call on several hosts and the time until the last of them was done. -/
abbrev RemoteResult (α : Type) := Timed (Except RemoteError α)

abbrev HostRetried (α : Type) := Retried AttemptError α

namespace RemoteExecutor

variable {ω α : Type}

/-- One attempt to run a script on a host. -/
def execOnce (x : RemoteExecutor ω) (options : ExecOptions) (script : String) (h : Host) :
    Action ω (Timed (Except AttemptError CommandOutput)) := do
  Action.count fun m => { m with remoteCommands := m.remoteCommands + 1 }
  let reply ← Action.outside (x.transport.exec h script options.elevated options.timeout)
  return AttemptError.ofReply options.timeout reply

def copyOnce (x : RemoteExecutor ω) (options : ExecOptions) (source target : String) (h : Host) :
    Action ω (Timed (Except AttemptError Unit)) := do
  let reply ← Action.outside (x.transport.copy h source target options.timeout)
  return AttemptError.ofReply options.timeout reply

def attempts (x : RemoteExecutor ω) (options : ExecOptions)
    (once : Host → Action ω (Timed (Except AttemptError α))) (h : Host) :
    Thread (Action ω) (Timed (Except AttemptError α)) (HostRetried α) :=
  retrying options.retry (x.draws h) AttemptError.isTransient fun _ => once h

/-- The attempts on several hosts at once. -/
def onHosts (x : RemoteExecutor ω) (options : ExecOptions)
    (once : Host → Action ω (Timed (Except AttemptError α))) (hosts : List Host) :
    Action ω (List (HostRetried α)) :=
  Thread.runAll (hosts.length * options.retry.attemptCount) (hosts.map (x.attempts options once))

def tryCommand (x : RemoteExecutor ω) (options : ExecOptions) (hosts : List Host)
    (command : RemoteCommand) : Action ω (List (HostRetried CommandOutput)) :=
  x.onHosts options (fun h => x.execOnce options (command.render h options.ignoreErrors) h) hosts

def tryCopy (x : RemoteExecutor ω) (options : ExecOptions) (hosts : List Host)
    (source target : String) : Action ω (List (HostRetried Unit)) :=
  x.onHosts options (x.copyOnce options source target) hosts

/-- The result of each host, with the errors of hosts whose attempts are used up. -/
def resultsOf (options : ExecOptions) (hosts : List Host) (tried : List (HostRetried α)) :
    List (Host × Except RemoteError α) :=
  (hosts.zip tried).map fun (h, r) =>
    (h, r.result.mapError (AttemptError.toRemote h options.timeout))

def longest (tried : List (HostRetried α)) : Duration :=
  tried.foldl (fun d r => max d r.elapsed) .zero

def outputOf (h : Host) (o : CommandOutput) : HostOutput :=
  { hostname := h.name, output := o.stdout, exitStatus := o.exitStatus, failed := !o.success }

/-- Goes through the results of the hosts in order, up to the first that fails the call. Commands
that have failed are counted on the way. -/
def collect (ignoreErrors : Bool) :
    List (Host × Except RemoteError CommandOutput) → Action ω (Except RemoteError (List HostOutput))
  | [] => return .ok []
  | (_, .error e) :: _ => return .error e
  | (h, .ok o) :: rest => do
    if !o.success then
      Action.count fun m => { m with remoteFailures := m.remoteFailures + 1 }
    if !o.success && !ignoreErrors then
      return .error (.failed h.toText o.exitStatus (Text.trim o.stderr))
    else
      let outputs ← collect ignoreErrors rest
      return outputs.map (outputOf h o :: ·)

def run (x : RemoteExecutor ω) (options : ExecOptions) (hosts : List Host)
    (command : RemoteCommand) : Action ω (RemoteResult (List HostOutput)) := do
  if hosts.isEmpty then return ⟨.error .noHosts, .zero⟩
  else
    let tried ← x.tryCommand options hosts command
    let outputs ← collect options.ignoreErrors (resultsOf options hosts tried)
    return ⟨outputs, longest tried⟩

def runOn (x : RemoteExecutor ω) (options : ExecOptions) (h : Host) (command : RemoteCommand) :
    Action ω (RemoteResult HostOutput) := do
  let reply ← x.run options [h] command
  match reply.result with
  | .ok (o :: _) => return ⟨.ok o, reply.took⟩
  | .ok [] => return ⟨.error .noHosts, reply.took⟩
  | .error e => return ⟨.error e, reply.took⟩

def firstError : List (Host × Except RemoteError Unit) → Except RemoteError Unit
  | [] => .ok ()
  | (_, .ok ()) :: rest => firstError rest
  | (_, .error e) :: _ => .error e

def copy (x : RemoteExecutor ω) (options : ExecOptions) (hosts : List Host)
    (source target : String) : Action ω (RemoteResult Unit) := do
  if hosts.isEmpty then return ⟨.error .noHosts, .zero⟩
  else
    let tried ← x.tryCopy options hosts source target
    return ⟨firstError (resultsOf options hosts tried), longest tried⟩

end RemoteExecutor

/-- The hosts of one role, with the options of commands on them. -/
structure HostGroup where
  hosts : List Host
  options : ExecOptions
  deriving DecidableEq, Repr, Inhabited

namespace HostGroup

variable {ω : Type}

def addresses (g : HostGroup) : List String := g.hosts.map Host.address

def runOnOne (g : HostGroup) (x : RemoteExecutor ω) (command : RemoteCommand) :
    Action ω (RemoteResult HostOutput) :=
  match g.hosts with
  | [] => return ⟨.error .noHosts, .zero⟩
  | h :: _ => x.runOn g.options h command

def runOnAll (g : HostGroup) (x : RemoteExecutor ω) (command : RemoteCommand) :
    Action ω (RemoteResult (List HostOutput)) :=
  x.run g.options g.hosts command

def copyToAll (g : HostGroup) (x : RemoteExecutor ω) (source target : String) :
    Action ω (RemoteResult Unit) :=
  x.copy g.options g.hosts source target

end HostGroup

end BenchCluster
