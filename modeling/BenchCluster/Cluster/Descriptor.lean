import BenchCluster.Cluster.Machine
import BenchCluster.Cluster.Target
import BenchCluster.Cluster.Lifecycle
import BenchCluster.Topology.Tree
import BenchCluster.Timestamp

/-! # Cluster descriptors

All that is known about one cluster between two invocations, and the questions asked of it.
-/

namespace BenchCluster

/-- The record of a cluster. The topology map holds the joined instance names of each role, the
components are the parameters of each role under the name of its environment, and the members are
the machines under their instance names. -/
structure ClusterDescriptor where
  clusterName : String
  state : ClusterState
  implementation : String
  topologyName : String
  topology : Template
  topologyMap : Dict String
  environments : List Environment
  components : Dict (Dict ComponentParams)
  members : Dict Machine
  connectionTarget : Option ConnectionTarget
  volumeSpecs : List VolumeSpec
  sharedStorage : List Volume
  createdAt : Timestamp
  deriving Repr, Inhabited

namespace ClusterDescriptor

/-- The record of a cluster for which nothing has been worked out yet. -/
def fresh (name implementation topologyName : String) (topology : Template) (now : Timestamp) :
    ClusterDescriptor :=
  { clusterName := name, state := .notReady, implementation := implementation
    topologyName := topologyName, topology := topology, topologyMap := ∅, environments := []
    components := ∅, members := ∅, connectionTarget := none, volumeSpecs := []
    sharedStorage := [], createdAt := now }

/-- The first environment of a name. -/
def environment? (d : ClusterDescriptor) (name : String) : Option Environment :=
  d.environments.find? fun env => env.name = name

/-- The parameters of a role, with the environment it lives in. -/
def component? (d : ClusterDescriptor) (role : String) : Option (Environment × ComponentParams) :=
  d.components.entries.findSome? fun (name, roles) => do
    let params ← roles.find? role
    let env ← d.environment? name
    return (env, params)

def instancesOf (d : ClusterDescriptor) (role : String) : List String :=
  match d.topologyMap.find? role with
  | some names => Text.words ',' names
  | none => []

def instances (d : ClusterDescriptor) : List (String × String) :=
  d.topologyMap.entries.flatMap fun (role, names) =>
    (Text.words ',' names).map fun name => (name, role)

def missingInstances (d : ClusterDescriptor) : List (String × String) :=
  d.instances.filter fun (name, _) => !d.members.contains name

def membersIn (d : ClusterDescriptor) (environment : String) : List Machine :=
  d.members.values.filter fun m => m.environment = environment

/-! ## The overview -/

def memberLine (name : String) (m : Machine) : String :=
  let address := m.address.getD "-"
  let owner := if m.managed then "managed" else "external"
  let storage := if m.ephemeral then " ephemeral" else ""
  s!"  {name}: role={m.role} address={address} {owner}{storage}"

/-- The overview of a cluster, line by line. -/
def summary (d : ClusterDescriptor) : List String :=
  [s!"cluster '{d.clusterName}' ({d.implementation}): {d.state.name}",
    s!"  topology: {d.topologyName}"] ++
  d.environments.map (fun env => s!"  environment {env.name}: {env.region} via {env.client}") ++
  d.members.entries.map (fun (name, m) => memberLine name m) ++
  d.missingInstances.map (fun (name, role) => s!"  {name}: role={role} (not allocated)") ++
  d.sharedStorage.map (fun v =>
    s!"  shared volume {v.name} ({v.sizeGb.toNat} GB) in {v.environment}") ++
  [match d.connectionTarget with
    | some target => "  connection: " ++ target.toText
    | none => "  connection: <not installed>"]

end ClusterDescriptor

end BenchCluster
