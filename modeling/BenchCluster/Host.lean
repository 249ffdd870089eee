import BenchCluster.Cluster.Machine
import BenchCluster.Text.Split
import BenchCluster.Text.Numeral

/-! # Hosts

Where a machine is reached, and how an address with an optional port is written.
-/

namespace BenchCluster

/-- A machine as commands reach it. -/
structure Host where
  name : String
  address : String
  user : Option String
  port : UInt16
  deriving DecidableEq, Repr, Inhabited

/-- Splits a port off an address. An address with several colons and no brackets has none. -/
def splitHostPort (text : String) : Except Text.NumeralError (String × Option UInt16) :=
  match Text.splitAtLast ':' text with
  | none => .ok (text, none)
  | some (head, tail) =>
    if Text.containsChar head ':' then .ok (text, none)
    else match Text.readNat UInt16.size tail with
      | .ok n => .ok (head, some (UInt16.ofNat n))
      | .error e => .error e

def hostPortMessage (text : String) (e : Text.NumeralError) : String :=
  s!"invalid port in '{text}': {e.message}"

namespace Host

def standardPort : UInt16 := 22

/-- The port of hosts that name none, where a variable may set it; an invalid one is passed over. -/
def portOfVariable : Option String → UInt16
  | none => standardPort
  | some text =>
    match Text.readNat UInt16.size text with
    | .ok n => UInt16.ofNat n
    | .error _ => standardPort

def portVariable : String := "BENCHCTL_SSH_PORT"

/-- The host under which a machine is reached, unless its address is missing or has a bad port. -/
def ofMachine? (defaultPort : UInt16) (m : Machine) : Option Host :=
  match m.address with
  | none => none
  | some text =>
    match splitHostPort text with
    | .error _ => none
    | .ok (address, port) =>
      some { name := m.name, address := address, user := m.user, port := port.getD defaultPort }

def destination (h : Host) : String :=
  match h.user with
  | some user => user ++ "@" ++ h.address
  | none => h.address

def toText (h : Host) : String := if h.name = h.address then h.name else s!"{h.name} ({h.address})"

end Host

end BenchCluster
