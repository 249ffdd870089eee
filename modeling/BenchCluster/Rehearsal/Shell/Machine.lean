import BenchCluster.FileTree
import BenchCluster.Duration
import BenchCluster.Dict
import BenchCluster.Text.Split

/-! # The state of a running shell

Files, variables, what has been printed and what is left to be read. Channels are numbered; each
leads to a buffer, an input, a file, nowhere or is closed.
-/

namespace BenchCluster.Rehearsal.Shell

/-- Where a channel leads. -/
inductive Channel
  | buffer (index : Nat)
  | input (index : Nat)
  | file (path : String)
  | null
  | closed
  deriving DecidableEq, Repr, Inhabited

/-- How a command has ended: the script goes on, the shell has been left or killed, or the command
does not end in time. -/
inductive Flow
  | next
  | left
  | killed
  | stuck
  deriving DecidableEq, Repr, Inhabited

/-- The state of a shell. Buffers hold what was printed in reverse. -/
structure Machine where
  files : FileTree
  bindings : Dict String
  arguments : List String := []
  buffers : List (List UInt8) := []
  inputs : List (List UInt8) := []
  channels : List (Nat × Channel) := []
  status : Nat := 0
  elapsed : Duration := .zero
  deadline : Duration
  /-- Whether the shell is left as soon as a command has failed. -/
  strict : Bool := false
  /-- Whether the command that runs is a condition, which may fail. -/
  tested : Bool := false
  /-- Whether only the programs of the working directory can be found. -/
  bare : Bool := false
  deriving Inhabited

namespace Machine

/-- Where a channel leads; one that was never opened is closed. -/
def channel (m : Machine) (fd : Nat) : Channel := (m.channels.lookup fd).getD .closed

def connect (m : Machine) (fd : Nat) (c : Channel) : Machine :=
  { m with channels := (fd, c) :: m.channels.filter fun e => e.1 ≠ fd }

def newBuffer (m : Machine) : Nat × Machine :=
  (m.buffers.length, { m with buffers := m.buffers ++ [[]] })

def newInput (m : Machine) (content : List UInt8) : Nat × Machine :=
  (m.inputs.length, { m with inputs := m.inputs ++ [content] })

def printed (m : Machine) (index : Nat) : List UInt8 := (m.buffers.getD index []).reverse

/-- Prints into a channel; says whether that was possible. -/
def emit (m : Machine) (fd : Nat) (bytes : List UInt8) : Bool × Machine :=
  match m.channel fd with
  | .buffer i => (true, { m with buffers := m.buffers.modify i (bytes.reverseAux ·) })
  | .file path =>
    match m.files.readBytes path with
    | .error _ => (false, m)
    | .ok old =>
      match m.files.writeBytes path (old ++ bytes) with
      | .ok files => (true, { m with files := files })
      | .error _ => (false, m)
  | .null => (true, m)
  | _ => (false, m)

def emitText (m : Machine) (fd : Nat) (s : String) : Machine := (m.emit fd (Text.encode s)).2

def readAll (m : Machine) (fd : Nat) : List UInt8 × Machine :=
  match m.channel fd with
  | .input i => (m.inputs.getD i [], { m with inputs := m.inputs.set i [] })
  | _ => ([], m)

def peek (m : Machine) (fd : Nat) : List UInt8 :=
  match m.channel fd with
  | .input i => m.inputs.getD i []
  | _ => []

def drop (m : Machine) (fd n : Nat) : Machine :=
  match m.channel fd with
  | .input i => { m with inputs := m.inputs.modify i (List.drop n) }
  | _ => m

def withStatus (m : Machine) (status : Nat) : Machine := { m with status := status }

/-- The state after a shell within another one, which keeps what belongs to it. -/
def returnTo (inner outer : Machine) : Machine :=
  { inner with
    bindings := outer.bindings, arguments := outer.arguments
    strict := outer.strict, tested := outer.tested }

/-- What follows a command that has ended: a strict shell is left if it has failed. -/
def settle (m : Machine) : Flow × Machine :=
  if m.strict && !m.tested && m.status ≠ 0 then (.left, m) else (.next, m)

def processId : String := "4711"

def value? (m : Machine) (name : String) : Option String :=
  match name with
  | "?" => some (toString m.status)
  | "$" => some processId
  | "#" => some (toString m.arguments.length)
  | "@" => some (" ".intercalate m.arguments)
  | "*" => some (" ".intercalate m.arguments)
  | "0" => some "sh"
  | _ =>
    match name.toNat? with
    | some n => m.arguments[n - 1]?
    | none => m.bindings.find? name

/-- The value of a variable, or its length behind a number sign; those not set are empty. -/
def value (m : Machine) (name : String) : String :=
  match name.toList with
  | '#' :: c :: rest => toString ((m.value? (String.ofList (c :: rest))).getD "").length
  | _ => (m.value? name).getD ""

end Machine

end BenchCluster.Rehearsal.Shell
