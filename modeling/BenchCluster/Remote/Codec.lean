import BenchCluster.Cluster.Codec
import BenchCluster.Remote.Executor

/-! # The written form of hosts and outputs -/

namespace BenchCluster

def Host.encode (h : Host) : Data :=
  .table [("name", .text h.name), ("address", .text h.address), ("user", .ofText? h.user),
    ("port", .integer h.port.toNat), ("destination", .text h.destination),
    ("display", .text h.toText)]

/-- Reads the record of a host, of which the port may be missing. -/
def Host.decode (defaultPort : UInt16) : Decoder Host := fun d => do
  let r ← Record.read? false ["name", "address", "user", "port"] d
  return {
    name := ← r.required "name" .text
    address := ← r.required "address" .text
    user := ← r.optional "user" .text
    port := ((← r.optional "port" .uint16).getD defaultPort) }

def HostOutput.encode (o : HostOutput) : Data :=
  .table [("host", .text o.hostname), ("output", .text o.output),
    ("exit", .ofOptional .integer o.exitStatus), ("failed", .bool o.failed)]

def CommandOutput.encode (o : CommandOutput) : Data :=
  .table [("exit", .ofOptional .integer o.exitStatus), ("stdout", .text o.stdout),
    ("stderr", .text o.stderr), ("success", .bool o.success)]

end BenchCluster
