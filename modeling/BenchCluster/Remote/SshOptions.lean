import BenchCluster.Data.Decode

/-! # Options of the remote shell -/

namespace BenchCluster

/-- How the remote shell and copy programs are called. -/
structure SshOptions where
  identityFile : Option String := none
  strictHostKeyChecking : Bool := false
  connectTimeoutSecs : UInt64 := 10
  deriving DecidableEq, Repr, Inhabited

namespace SshOptions

def encode (o : SshOptions) : Data :=
  .table [
    ("identity_file", match o.identityFile with | some path => .text path | none => .null),
    ("strict_host_key_checking", .bool o.strictHostKeyChecking),
    ("connect_timeout_secs", .integer o.connectTimeoutSecs.toNat)]

def decode : Decoder SshOptions := fun d => do
  let r ← Record.read? false
    ["identity_file", "strict_host_key_checking", "connect_timeout_secs"] d
  return {
    identityFile := ← r.optional "identity_file" .text
    strictHostKeyChecking := ← r.withDefault "strict_host_key_checking" .bool false
    connectTimeoutSecs := ← r.withDefault "connect_timeout_secs" .uint64 10 }

end SshOptions

end BenchCluster
