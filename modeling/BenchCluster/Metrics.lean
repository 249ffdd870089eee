/-! # Metrics

The counters of one invocation, and the state that everything in it shares: the counters together
with the world outside.
-/

namespace BenchCluster

/-- The numbers of calls made during one invocation, and of those that failed. -/
structure Metrics where
  remoteCommands : Nat := 0
  remoteFailures : Nat := 0
  cloudCalls : Nat := 0
  cloudFailures : Nat := 0
  deriving DecidableEq, Repr, Inhabited

def Metrics.toText (m : Metrics) : String :=
  s!"{m.remoteCommands} remote command attempt(s), {m.remoteFailures} failed; " ++
    s!"{m.cloudCalls} cloud call(s), {m.cloudFailures} failed"

/-- The state of one invocation: its counters and the world outside. -/
structure Invocation (ω : Type) where
  metrics : Metrics := {}
  outside : ω

/-- A computation that may change the counters and the world outside. -/
abbrev Action (ω : Type) := StateM (Invocation ω)

namespace Action

variable {ω α : Type}

def outside (act : StateM ω α) : Action ω α := fun s =>
  let (a, w) := act s.outside
  (a, { s with outside := w })

def count (change : Metrics → Metrics) : Action ω Unit := fun s =>
  ((), { s with metrics := change s.metrics })

end Action

end BenchCluster
