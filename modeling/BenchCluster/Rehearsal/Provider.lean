import BenchCluster.Cloud.Basic

/-! # A provider that only remembers

The provider of a rehearsal hands out numbered machines and remembers what it was asked. Some
instances may have no capacity, and some cannot be terminated.
-/

namespace BenchCluster.Rehearsal

/-- The state of the provider. The lists hold names in the order of the calls. -/
structure Provider where
  lastNumber : Nat := 0
  withoutCapacity : List String := []
  stuck : List String := []
  running : Bool := false
  launched : List String := []
  volumes : List (String × String) := []
  terminated : List String := []
  destroyed : List String := []
  stopped : List String := []
  started : List String := []
  /-- The invocation that is interrupted by every launch. -/
  interruptOnLaunch : Option Nat := none
  deriving DecidableEq, Repr, Inhabited

namespace Provider

def machine (r : LaunchRequest) (n : Nat) : Machine :=
  { r.machine ("i-" ++ Text.padded 4 n) with
    publicAddress := some ("10.0.0." ++ toString n)
    privateAddress := some ("192.168.0." ++ toString n)
    provisioned := true }

def launch (r : LaunchRequest) : StateM Provider (Option Machine) := fun p =>
  let p := { p with launched := p.launched ++ [r.name] }
  if p.withoutCapacity.contains r.name then (none, p)
  else
    let n := p.lastNumber + 1
    (some (machine r n), { p with lastNumber := n })

/-- Terminates an instance, unless it is stuck. -/
def terminate (m : Machine) : StateM Provider (Except CloudError Unit) := fun p =>
  if p.stuck.contains m.name then
    (.error (.commandFailed "fake terminate" (some 1) (m.id ++ " is stuck")), p)
  else (.ok (), { p with terminated := p.terminated ++ [m.name] })

def start (m : Machine) : StateM Provider Machine := fun p =>
  (m, { p with started := p.started ++ [m.name] })

def stop (m : Machine) : StateM Provider Unit := fun p =>
  ((), { p with stopped := p.stopped ++ [m.name] })

def createVolume (r : StorageRequest) : StateM Provider Volume := fun p =>
  ({ id := "vol-" ++ r.environment.name ++ "-" ++ r.spec.name
     name := r.spec.name, environment := r.environment.name
     sizeGb := r.spec.sizeGb, mount := r.spec.mount, shared := true },
    { p with volumes := p.volumes ++ [(r.environment.name, r.spec.name)] })

def destroyVolume (v : Volume) : StateM Provider Unit := fun p =>
  ((), { p with destroyed := p.destroyed ++ [v.id] })

end Provider

end BenchCluster.Rehearsal
