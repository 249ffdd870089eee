import BenchCluster.Host
import BenchCluster.Duration
import BenchCluster.Retry.Loop

/-! # Transports

The channel that commands travel over. A call answers within some time or never; a call that is
given up at a limit has no effects after it.
-/

namespace BenchCluster

/-- What a command left behind. There is no exit status if a signal has ended it. -/
structure CommandOutput where
  exitStatus : Option Int
  stdout : String := ""
  stderr : String := ""
  deriving DecidableEq, Repr, Inhabited

def CommandOutput.success (o : CommandOutput) : Bool := o.exitStatus = some 0

/-- The ways in which a call of a transport fails. -/
inductive TransportError
  | spawn (program : String)
  | connection (host message : String)
  | io (host cause : String)
  | missingFile (path : String)
  deriving DecidableEq, Repr

namespace TransportError

def message : TransportError → String
  | .spawn program => s!"could not run '{program}'"
  | .connection host text => s!"connection to {host} failed: {text}"
  | .io host cause => s!"I/O error while talking to {host}: {cause}"
  | .missingFile path => s!"local file '{path}' does not exist"

def isTransient : TransportError → Bool
  | .connection _ _ => true
  | .io _ _ => true
  | _ => false

end TransportError

/-- How a call ends: after some time with a result, or never. -/
inductive Reply (α : Type)
  | ended (after : Duration) (result : α)
  | hanging
  deriving Repr

/-- What is seen of a call that is given up at a limit. -/
def Reply.within {α : Type} (limit : Duration) : Reply α → Timed (Option α)
  | .ended after result => if after ≤ limit then ⟨some result, after⟩ else ⟨none, limit⟩
  | .hanging => ⟨none, limit⟩

/-- A channel to hosts. Both calls are told the time after which they will be given up. -/
structure Transport (ω : Type) where
  /-- Runs a script with one shell on a host, as root if asked. -/
  exec : Host → String → Bool → Duration → StateM ω (Reply (Except TransportError CommandOutput))
  /-- Copies a local file to a path on a host. -/
  copy : Host → String → String → Duration → StateM ω (Reply (Except TransportError Unit))

end BenchCluster
