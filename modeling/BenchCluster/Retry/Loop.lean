import BenchCluster.Retry.Policy
import BenchCluster.Thread

/-! # Retrying an operation

`retry` calls an operation until it succeeds, fails for good or has used up its policy. Each call
answers with how long it took, and the result says how much time all of it has taken.
-/

namespace BenchCluster

/-- How retrying an operation has failed. -/
inductive RetryError (ε : Type)
  /-- The operation kept failing until the policy ran out. -/
  | exhausted (attempts : Nat) (elapsed : Duration) (last : ε)
  /-- The operation failed in a way that is not worth another attempt. -/
  | permanent (error : ε)
  deriving DecidableEq, Repr

namespace RetryError

variable {ε : Type}

def inner : RetryError ε → ε
  | .exhausted _ _ e => e
  | .permanent e => e

/-- The number of attempts before giving up; an error for good counts as a single one. -/
def attempts : RetryError ε → Nat
  | .exhausted n _ _ => n
  | .permanent _ => 1

def message (text : ε → String) : RetryError ε → String
  | .exhausted n elapsed e => s!"gave up after {n} attempt(s) in {elapsed.toText}: {text e}"
  | .permanent e => text e

end RetryError

structure Timed (α : Type) where
  result : α
  took : Duration
  deriving DecidableEq, Repr

/-- A call that has been made: when it began, and its answer. -/
structure TimedCall (ε α : Type) where
  began : Duration
  answer : Timed (Except ε α)

def TimedCall.ended {ε α : Type} (c : TimedCall ε α) : Duration := c.began + c.answer.took

/-- The outcome of all calls, with a log of them. -/
structure Retried (ε α : Type) where
  result : Except (RetryError ε) α
  log : List (TimedCall ε α)

namespace Retried

variable {ε α : Type}

def calls (r : Retried ε α) : Nat := r.log.length

def elapsed (r : Retried ε α) : Duration :=
  match r.log.getLast? with
  | some c => c.ended
  | none => .zero

end Retried

/-- Whether waiting for the next call would go past the limit. -/
def outOfTime (limit : Option Duration) (now delay : Duration) : Bool :=
  match limit with
  | some limit => limit < now + delay
  | none => false

variable {m : Type → Type} {ε α : Type}

/-- Calls the operation, which is told the number of calls before it, as long as there are delays
left. A wait lasts a whole number of milliseconds. -/
def retryAfter (limit : Option Duration) (isTransient : ε → Bool)
    (op : Nat → m (Timed (Except ε α))) :
    List (TimedCall ε α) → Duration → List Duration → Thread m (Timed (Except ε α)) (Retried ε α)
  | before, begins, delays =>
    .call begins (op before.length) fun answer =>
      let log := before ++ [⟨begins, answer⟩]
      let now := begins + answer.took
      match answer.result with
      | .ok a => .done ⟨.ok a, log⟩
      | .error e =>
        if !isTransient e then .done ⟨.error (.permanent e), log⟩
        else match delays with
          | [] => .done ⟨.error (.exhausted log.length now e), log⟩
          | delay :: rest =>
            if outOfTime limit now delay then .done ⟨.error (.exhausted log.length now e), log⟩
            else retryAfter limit isTransient op log (now + delay.roundUp) rest

/-- Calls the operation as often as the policy allows, as a thread of its own. -/
def retrying (policy : RetryPolicy) (draws : Draws) (isTransient : ε → Bool)
    (op : Nat → m (Timed (Except ε α))) : Thread m (Timed (Except ε α)) (Retried ε α) :=
  retryAfter policy.maxElapsed isTransient op [] .zero (policy.delaySequence draws)

def retry [Monad m] (policy : RetryPolicy) (draws : Draws) (isTransient : ε → Bool)
    (op : Nat → m (Timed (Except ε α))) : m (Retried ε α) :=
  (retrying policy draws isTransient op).run

end BenchCluster
