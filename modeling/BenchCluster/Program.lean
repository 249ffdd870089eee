import BenchCluster.Remote.Transport
import BenchCluster.Text.Utf8

/-! # Programs

Calls of programs outside, which both the remote shell and the clouds of the command line are made
of.
-/

namespace BenchCluster

/-- A program to be started. Without an input its standard input is empty. -/
structure ProgramCall where
  program : String
  arguments : List String
  input : Option (List UInt8) := none
  deriving DecidableEq, Repr

/-- What a program left behind. There is no exit status if a signal has ended it. -/
structure ProgramOutput where
  exitStatus : Option Int
  stdout : List UInt8 := []
  stderr : List UInt8 := []
  deriving DecidableEq, Repr, Inhabited

namespace ProgramOutput

def success (o : ProgramOutput) : Bool := o.exitStatus = some 0

def text (o : ProgramOutput) : String := Text.decodeLossy o.stdout

def errorText (o : ProgramOutput) : String := Text.decodeLossy o.stderr

end ProgramOutput

/-- The programs that can be called. A call is told the time after which it will be given up, and
has no output if the program cannot be started. -/
structure Programs (ω : Type) where
  run : ProgramCall → Duration → StateM ω (Reply (Option ProgramOutput))

end BenchCluster
