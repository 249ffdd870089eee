import BenchCluster.Cloud.Basic
import BenchCluster.Remote.Transport
import BenchCluster.Text.Split

/-! # Faults

Rules that make calls of a rehearsal fail or go wrong. The first rule that fits a call and has uses
left applies.
-/

namespace BenchCluster.Rehearsal

inductive CloudCall
  | launch
  | terminate
  | start
  | stop
  | launchStorage
  | destroyStorage
  | isRunning
  deriving DecidableEq, Repr

def CloudCall.name : CloudCall → String
  | .launch => "launch"
  | .terminate => "terminate"
  | .start => "start"
  | .stop => "stop"
  | .launchStorage => "launch_storage"
  | .destroyStorage => "destroy_storage"
  | .isRunning => "is_running"

inductive CloudFault
  /-- The provider is not asked and there is no machine. -/
  | noMachine
  | timeout
  | fail (status : Option Int) (stderr : String)
  /-- The user asks to stop, and the call goes on. -/
  | interrupt
  /-- The call goes on, and fields of the machine are replaced. -/
  | machine (fields : List (String × Data))
  /-- The call goes on, and fields of the volume are replaced. -/
  | volume (fields : List (String × Data))
  | running (answer : Bool)
  deriving Repr

/-- What goes wrong with a call on a host, behind a delay. -/
inductive RemoteFault
  | output (o : CommandOutput)
  | connection (message : String)
  | hang
  | spawn
  | io
  | missing
  /-- The user asks to stop, and the call goes on. -/
  | interrupt
  /-- Nothing beyond the delay. -/
  | goOn
  deriving Repr

/-- A rule for calls that fit what is given. -/
structure FaultRule (α : Type) where
  call : Option String := none
  name : Option String := none
  contains : Option String := none
  times : Option Nat := none
  action : α

/-- A rule with the number of its uses, for each party they are counted for. -/
structure CountedRule (α : Type) where
  rule : FaultRule α
  uses : Dict Nat := ∅

namespace CountedRule

variable {α : Type}

def applies (r : CountedRule α) (party call name text : String) : Bool :=
  (r.rule.call.all fun c => c = call) && (r.rule.name.all fun n => n = name) &&
    (r.rule.contains.all fun needle => Text.contains text needle) &&
    (r.rule.times.all fun n => decide ((r.uses.find? party).getD 0 < n))

def use (r : CountedRule α) (party : String) : CountedRule α :=
  { r with uses := r.uses.insert party ((r.uses.find? party).getD 0 + 1) }

/-- The action of the first rule that applies, and the rules with that use counted. -/
def take (party call name text : String) :
    List (CountedRule α) → Option α × List (CountedRule α)
  | [] => (none, [])
  | r :: rest =>
    if r.applies party call name text then (some r.rule.action, r.use party :: rest)
    else
      let (action, rest) := take party call name text rest
      (action, r :: rest)

end CountedRule

/-- A fault of a call on a host, with the time that passes first. -/
structure DelayedFault where
  delay : Duration := .zero
  fault : RemoteFault
  deriving Repr

end BenchCluster.Rehearsal
