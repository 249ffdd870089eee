/-! # The life of a cluster

The states of a cluster, and which operation may run in which of them.
-/

namespace BenchCluster

/-- Where a cluster is in its life. -/
inductive ClusterState
  | notReady
  | allocated
  | ready
  | down
  | failed
  deriving DecidableEq, Repr, Inhabited

namespace ClusterState

def name : ClusterState → String
  | .notReady => "not_ready"
  | .allocated => "allocated"
  | .ready => "ready"
  | .down => "down"
  | .failed => "failed"

def all : List ClusterState := [.notReady, .allocated, .ready, .down, .failed]

end ClusterState

/-- The operations that only some states allow. -/
inductive Operation
  | allocate (force : Bool)
  | make
  | install
  | stop
  | start
  | clean
  deriving DecidableEq, Repr

def Operation.name : Operation → String
  | .allocate _ => "allocate"
  | .make => "make"
  | .install => "install"
  | .stop => "stop"
  | .start => "start"
  | .clean => "clean"

/-- An operation that the state of a cluster does not allow. -/
structure IllegalTransition where
  cluster : String
  operation : Operation
  state : ClusterState
  hint : Option String
  deriving DecidableEq, Repr

def IllegalTransition.message (e : IllegalTransition) : String :=
  let hint := match e.hint with | some hint => " (" ++ hint ++ ")" | none => ""
  s!"cannot {e.operation.name} cluster '{e.cluster}' while it is {e.state.name}{hint}"

namespace ClusterState

/-- Whether an operation may run in a state. -/
def allows : ClusterState → Operation → Bool
  | .notReady, .allocate _ => true
  | .allocated, .allocate force => force
  | .failed, .allocate force => force
  | .allocated, .make => true
  | .allocated, .install => true
  | .ready, .stop => true
  | .down, .start => true
  | _, .clean => true
  | _, _ => false

def hint : ClusterState → Operation → Option String
  | .allocated, .allocate _ => some "use --force to allocate the missing members"
  | .failed, .allocate _ => some "use --force to allocate the missing members"
  | .notReady, .install => some "allocate it first"
  | _, _ => none

def check (state : ClusterState) (cluster : String) (operation : Operation) :
    Except IllegalTransition Unit :=
  if state.allows operation then .ok ()
  else .error ⟨cluster, operation, state, state.hint operation⟩

theorem check_eq_ok_iff (state : ClusterState) (cluster : String) (operation : Operation) :
    state.check cluster operation = .ok () ↔ state.allows operation = true := by
  simp only [check]
  split <;> simp_all

end ClusterState

end BenchCluster
