import BenchCluster.Orchestrator.Basic

/-! # Configuring a cluster

The plan is worked out and the topology expanded before any cloud is asked anything.
-/

namespace BenchCluster

/-- Whether a descriptor may be replaced: nothing has been made for it yet. -/
def ClusterDescriptor.isReplaceable (d : ClusterDescriptor) : Bool :=
  d.state = .notReady && d.members.isEmpty && d.sharedStorage.isEmpty

def Plan.descriptor (p : Plan) (cluster : String) (names : Dict String) (now : Timestamp) :
    ClusterDescriptor :=
  { ClusterDescriptor.fresh cluster p.implementation p.topologyName p.topology now with
    topologyMap := names
    environments := p.environments
    components := p.components
    volumeSpecs := p.sharedStorage }

def Plan.expand (p : Plan) : Except TopologyError (Dict String) :=
  ((TopologyTree.ofTemplate p.topology).expand fun role => (p.countOf role).map UInt32.toNat).map
    Prod.snd

namespace Surroundings

variable {ω : Type}

/-- Fails if there is a descriptor that must not be replaced. -/
def checkVacant (s : Surroundings ω) (cluster : String) (force : Bool) : Work ω Unit := do
  if ← Work.ofFallible .store (Action.outside (s.store.contains cluster)) then
    if !force then throw (.alreadyConfigured cluster)
    let existing ← s.load cluster
    if !existing.isReplaceable then throw (.holdsResources cluster existing.state)

/-- Fails if the cloud of an environment runs something of the cluster already. -/
def checkIdle (s : Surroundings ω) (cluster : String) (configs : Dict CloudConfig)
    (env : Environment) : Work ω Unit := do
  let cloud ← Work.ofExcept id (s.buildCloud configs env)
  if ← Work.ofFallible .cloud (cloud.isRunning cluster) then
    throw (.alreadyRunning cluster env.name)

/-- Creates the descriptor of a cluster from the documents. -/
def configure (s : Surroundings ω) (cluster : String) (documents : Documents)
    (implementation : String) (force : Bool) : Work ω ClusterDescriptor := do
  s.checkInterrupted
  s.checkVacant cluster force
  let plan ← Work.ofExcept .config (documents.plan implementation)
  let names ← Work.ofExcept .topology plan.expand
  plan.environments.forM (s.checkIdle cluster documents.clouds)
  let inv ← Work.ofAction get
  let d := plan.descriptor cluster names (s.now inv.outside)
  s.save d
  return d

end Surroundings

end BenchCluster
