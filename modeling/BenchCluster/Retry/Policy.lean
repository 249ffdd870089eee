import BenchCluster.Duration
import BenchCluster.Number
import BenchCluster.Data.Decode

/-! # Retry policies

How many attempts an operation gets and how long to wait between two of them. The delays are known
before the first attempt: there is one less than there are attempts.
-/

namespace BenchCluster

/-- How the wait between two attempts is chosen. -/
inductive Delays
  /-- Delays that grow by a factor up to a limit, spread at random by a fraction of their length. -/
  | exponential (initialMs maxMs : UInt64) (multiplier jitter : Number)
  /-- The same delay every time. -/
  | constant (delayMs : UInt64)
  deriving DecidableEq, Repr, Inhabited

/-- How often and for how long an operation is tried. -/
structure RetryPolicy where
  attempts : UInt32
  maxElapsedMs : Option UInt64 := none
  delays : Delays
  deriving DecidableEq, Repr, Inhabited

/-- An endless supply of random fractions, each from zero up to, and without, one. -/
structure Draws where
  draw : Nat → Rat

def Draws.zero : Draws := ⟨fun _ => 0⟩

instance : Inhabited Draws := ⟨Draws.zero⟩

namespace Delays

/-- The interval after one of the given length, both in nanoseconds: multiplied, but set to the
maximum as soon as that is reached. -/
def grow (maximum : Nat) (multiplier : Number) (current : Nat) : Nat :=
  match multiplier with
  | .finite q =>
    if 0 < q then
      if (maximum : Rat) ≤ current * q then maximum else (current * q).floor.toNat
    else if q < 0 then maximum
    else 0
  | .undefined => 0
  | _ => maximum

def intervals (maximum : Nat) (multiplier : Number) : Nat → Nat → List Nat
  | 0, _ => []
  | count + 1, current =>
    current :: intervals maximum multiplier count (grow maximum multiplier current)

def spread : Number → Rat
  | .finite q => if q < 0 then 0 else if 1 < q then 1 else q
  | .infinity => 1
  | _ => 0

/-- An interval moved to a random place at most the fraction of its length away. -/
def scatter (fraction draw : Rat) (interval : Nat) : Nat :=
  ((interval : Rat) * (1 - fraction) + draw * (2 * fraction * interval + 1)).floor.toNat

def sequence (draws : Draws) (count : Nat) : Delays → List Duration
  | .constant delayMs => List.replicate count (.ofMillis delayMs.toNat)
  | .exponential initialMs maxMs multiplier jitter =>
    let maximum := maxMs.toNat * 1000000
    (intervals maximum multiplier count (initialMs.toNat * 1000000)).mapIdx fun i interval =>
      ⟨scatter (spread jitter) (draws.draw i) interval⟩

theorem length_intervals (maximum : Nat) (multiplier : Number) (count current : Nat) :
    (intervals maximum multiplier count current).length = count := by
  induction count generalizing current with
  | zero => rfl
  | succ count ih => simp [intervals, ih]

@[simp] theorem length_sequence (draws : Draws) (count : Nat) (delays : Delays) :
    (delays.sequence draws count).length = count := by
  cases delays <;> simp [sequence, length_intervals]

end Delays

namespace RetryPolicy

def remoteDefault : RetryPolicy :=
  { attempts := 5, maxElapsedMs := some 120000
    delays := .exponential 1000 15000 (.finite 2) (.finite (1 / 2)) }

def cloudDefault : RetryPolicy :=
  { attempts := 8, maxElapsedMs := some 300000
    delays := .exponential 2000 60000 (.finite 2) (.finite (1 / 2)) }

def once : RetryPolicy := { attempts := 1, delays := .constant 0 }

def constant (attempts : UInt32) (delayMs : UInt64) : RetryPolicy :=
  { attempts := attempts, delays := .constant delayMs }

/-- The policies that have a name. -/
def named : List (String × RetryPolicy) :=
  [("default", remoteDefault), ("remote_default", remoteDefault),
    ("cloud_default", cloudDefault), ("once", once)]

/-- The number of attempts; there is always one. -/
def attemptCount (p : RetryPolicy) : Nat := max p.attempts.toNat 1

def maxElapsed (p : RetryPolicy) : Option Duration :=
  p.maxElapsedMs.map fun ms => .ofMillis ms.toNat

def delaySequence (p : RetryPolicy) (draws : Draws) : List Duration :=
  p.delays.sequence draws (p.attemptCount - 1)

@[simp] theorem length_delaySequence (p : RetryPolicy) (draws : Draws) :
    (p.delaySequence draws).length = p.attemptCount - 1 := by
  simp [delaySequence]

end RetryPolicy

/-! ## The written form -/

namespace Delays

def encode : Delays → Data
  | .exponential initialMs maxMs multiplier jitter =>
    .table [("kind", .text "exponential"), ("initial_ms", .integer initialMs.toNat),
      ("max_ms", .integer maxMs.toNat), ("multiplier", .number multiplier),
      ("jitter", .number jitter)]
  | .constant delayMs =>
    .table [("kind", .text "constant"), ("delay_ms", .integer delayMs.toNat)]

def decodeKind (kind : String) (d : Data) : Option Delays :=
  match kind with
  | "exponential" => do
    let r ← Record.read? false ["initial_ms", "max_ms", "multiplier", "jitter"] d
    return .exponential (← r.required "initial_ms" .uint64) (← r.required "max_ms" .uint64)
      (← r.required "multiplier" .number) (← r.required "jitter" .number)
  | "constant" => do
    let r ← Record.read? false ["delay_ms"] d
    return .constant (← r.required "delay_ms" .uint64)
  | _ => none

/-- Reads the record of a choice of delays; as a list it begins with the kind. -/
def decode : Decoder Delays
  | .list (.text kind :: rest) => decodeKind kind (.list rest)
  | .openList (.text kind :: rest) => decodeKind kind (.list rest)
  | .table entries =>
    match entries.filter fun e => e.1 = "kind" with
    | [(_, .text kind)] => decodeKind kind (.table entries)
    | _ => none
  | _ => none

end Delays

namespace RetryPolicy

def encode (p : RetryPolicy) : Data :=
  .table [("attempts", .integer p.attempts.toNat),
    ("max_elapsed_ms", match p.maxElapsedMs with | some ms => .integer ms.toNat | none => .null),
    ("delays", p.delays.encode)]

def decode : Decoder RetryPolicy := fun d => do
  let r ← Record.read? false ["attempts", "max_elapsed_ms", "delays"] d
  return {
    attempts := ← r.required "attempts" .uint32
    maxElapsedMs := ← r.optional "max_elapsed_ms" .uint64
    delays := ← r.required "delays" Delays.decode }

end RetryPolicy

end BenchCluster
