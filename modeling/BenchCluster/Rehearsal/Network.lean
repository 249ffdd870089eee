import BenchCluster.Remote.Transport
import BenchCluster.Text.Split

/-! # A network that only remembers

The hosts of a rehearsal run nothing. They answer that they are done, unless they have been told
to fail, to hang or to drop connections.
-/

namespace BenchCluster.Rehearsal

/-- A command that a host was given, or a copy in words. -/
structure ExecRecord where
  host : String
  script : String
  elevated : Bool
  deriving DecidableEq, Repr, Inhabited

/-- The state of the network. -/
structure Network where
  records : List ExecRecord := []
  exitCodes : Dict Int := ∅
  hanging : List String := []
  dropped : Dict Nat := ∅
  deriving DecidableEq, Repr, Inhabited

namespace Network

def output (h : Host) (code : Int) : CommandOutput :=
  { exitStatus := some code
    stdout := h.name ++ " done"
    stderr := if code = 0 then "" else "exit " ++ toString code }

def exec (h : Host) (script : String) (elevated : Bool) :
    StateM Network (Reply (Except TransportError CommandOutput)) := fun n =>
  let n := { n with records := n.records ++ [⟨h.name, script, elevated⟩] }
  if n.hanging.contains h.name then (.hanging, n)
  else match n.dropped.find? h.name with
    | some (left + 1) =>
      (.ended .zero (.error (.connection h.toText "connection reset by peer")),
        { n with dropped := n.dropped.insert h.name left })
    | _ => (.ended .zero (.ok (output h ((n.exitCodes.find? h.name).getD 0))), n)

def copy (h : Host) (source target : String) :
    StateM Network (Reply (Except TransportError Unit)) := fun n =>
  (.ended .zero (.ok ()),
    { n with records := n.records ++ [⟨h.name, s!"copy {source} {target}", false⟩] })

def scriptsFor (n : Network) (host : String) : List String :=
  (n.records.filter fun r => r.host = host).map ExecRecord.script

def hostsRunning (n : Network) (needle : String) : List String :=
  let found := n.records.filter fun r => Text.contains r.script needle
  (Dict.ofList (found.map fun r => (r.host, ()))).keys

end Network

end BenchCluster.Rehearsal
