import BenchCluster.Program
import BenchCluster.Remote.SshOptions
import BenchCluster.Text.Split

/-! # The remote shell as a transport

Commands and copies by way of the programs `ssh` and `scp`.
-/

namespace BenchCluster.Ssh

def commonArguments (o : SshOptions) : List String :=
  let strict := if o.strictHostKeyChecking then "yes" else "no"
  ["-o", "BatchMode=yes", "-o", "StrictHostKeyChecking=" ++ strict,
    "-o", "ConnectTimeout=" ++ toString o.connectTimeoutSecs.toNat] ++
  match o.identityFile with
  | some path => ["-i", path]
  | none => []

def execCall (o : SshOptions) (h : Host) (script : String) (elevated : Bool) : ProgramCall :=
  { program := "ssh"
    arguments := commonArguments o ++ ["-p", toString h.port.toNat, h.destination,
      if elevated then "sudo -n bash -s" else "bash -s"]
    input := some (Text.encode script) }

def copyCall (o : SshOptions) (h : Host) (source target : String) : ProgramCall :=
  { program := "scp"
    arguments := commonArguments o ++ ["-P", toString h.port.toNat, source,
      h.destination ++ ":" ++ target] }

/-- The exit status that stands for a failed connection. -/
def connectionFailure : Int := 255

/-- What the end of a script's shell means. -/
def execResult (h : Host) : Option ProgramOutput → Except TransportError CommandOutput
  | none => .error (.spawn "ssh")
  | some o =>
    if o.exitStatus = some connectionFailure then
      .error (.connection h.toText (Text.trim o.errorText))
    else
      .ok { exitStatus := o.exitStatus, stdout := o.text, stderr := o.errorText }

def copyResult (h : Host) : Option ProgramOutput → Except TransportError Unit
  | none => .error (.spawn "scp")
  | some o =>
    if o.success then .ok () else .error (.connection h.toText (Text.trim o.errorText))

def mapReply {α β : Type} (f : α → β) : Reply α → Reply β
  | .ended after a => .ended after (f a)
  | .hanging => .hanging

variable {ω : Type}

/-- The transport over the given programs. A copy looks for its local file first. -/
def transport (programs : Programs ω) (fileExists : String → StateM ω Bool) (o : SshOptions) :
    Transport ω :=
  { exec := fun h script elevated limit => do
      let reply ← programs.run (execCall o h script elevated) limit
      return mapReply (execResult h) reply
    copy := fun h source target limit => do
      if ← fileExists source then
        let reply ← programs.run (copyCall o h source target) limit
        return mapReply (copyResult h) reply
      else
        return .ended .zero (.error (.missingFile source)) }

end BenchCluster.Ssh
