import BenchCluster.Duration

/-! # Threads that wait for calls

A thread makes calls at certain times and goes on with their answers. Several threads that run at
once take turns in the order of these times; a call is made as a whole when its turn has come.
-/

namespace BenchCluster

/-- A computation that has ended, or that makes a call at some time and goes on with the answer. -/
inductive Thread (m : Type → Type) (β α : Type)
  | done (result : α)
  | call (begins : Duration) (act : m β) (next : β → Thread m β α)

namespace Thread

variable {m : Type → Type} {β α : Type}

def run [Monad m] : Thread m β α → m α
  | .done result => return result
  | .call _ act next => do
    let answer ← act
    (next answer).run

structure Due (m : Type → Type) (β α : Type) where
  before : List (Thread m β α)
  begins : Duration
  act : m β
  next : β → Thread m β α
  after : List (Thread m β α)

/-- The thread whose call begins first. Of several that begin at the same time it is the first in
the list. -/
def due? : List (Thread m β α) → Option (Due m β α)
  | [] => none
  | t :: rest =>
    let later := (due? rest).map fun d => { d with before := t :: d.before }
    match t with
    | .done _ => later
    | .call begins act next =>
      match later with
      | some d => if d.begins < begins then some d else some ⟨[], begins, act, next, rest⟩
      | none => some ⟨[], begins, act, next, rest⟩

/-- Makes the calls of threads that run at once, up to the given number; what is left after that
is done by one thread after the other. -/
def runAll [Monad m] : Nat → List (Thread m β α) → m (List α)
  | 0, threads => threads.mapM run
  | calls + 1, threads =>
    match due? threads with
    | none => threads.mapM run
    | some d => do
      let answer ← d.act
      runAll calls (d.before ++ d.next answer :: d.after)

end Thread

end BenchCluster
