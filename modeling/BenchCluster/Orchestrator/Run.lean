import BenchCluster.Orchestrator.Configure
import BenchCluster.Orchestrator.Allocate
import BenchCluster.Orchestrator.Install
import BenchCluster.Orchestrator.Clean
import BenchCluster.Orchestrator.Power

/-! # Bringing up a cluster in one go -/

namespace BenchCluster.Surroundings

variable {ω : Type}

/-- Configures, allocates, prepares and installs a cluster. -/
def all (s : Surroundings ω) (cluster : String) (documents : Documents) (implementation : String)
    (force : Bool) : Work ω ClusterDescriptor := do
  let _ ← s.configure cluster documents implementation force
  let _ ← s.allocate cluster false
  let _ ← s.make cluster
  s.install cluster

end BenchCluster.Surroundings
