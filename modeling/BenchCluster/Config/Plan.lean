import BenchCluster.Config.Documents

/-! # Plans

What an implementation amounts to: the environments it needs, and the merged parameters of every
role of its topology. Cloud defaults lie below implementation defaults, and these below the table
of the role itself.
-/

namespace BenchCluster

/-- The environments and merged parameters of an implementation. -/
structure Plan where
  implementation : String
  topologyName : String
  topology : Template
  environments : List Environment
  components : Dict (Dict ComponentParams)
  sharedStorage : List VolumeSpec
  deriving Repr, Inhabited

/-- The number of replicas of a role, in the first environment that has it. -/
def Plan.countOf (p : Plan) (role : String) : Option UInt32 :=
  (p.components.values.findSome? fun roles => roles.find? role).map ComponentParams.count

def Plan.encode (p : Plan) (roles : List String) : Data :=
  let counts := roles.map fun role => (role, p.countOf role)
  .table [("implementation", .text p.implementation), ("topology_name", .text p.topologyName),
    ("topology", p.topology.encode),
    ("environments", .list (p.environments.map Environment.encode)),
    ("components", .ofDict (.ofDict ComponentParams.encode) p.components),
    ("shared_storage", .list (p.sharedStorage.map VolumeSpec.encode)),
    ("counts", .ofDict (.ofOptional fun n => .integer n.toNat) (Dict.ofList counts))]

namespace Documents

def componentParams (role cloudName : String) (cloud : CloudConfig) (merged : RoleOverrides) :
    Except ConfigError ComponentParams :=
  match merged.region with
  | none => .error (.missingField role "region")
  | some region =>
    let managed := merged.managed.getD true
    let hosts := merged.hosts.getD []
    if !managed && hosts.isEmpty then .error (.noHosts role)
    else .ok {
      role := role
      implementation := merged.implementation.getD role
      count := merged.count.getD 1
      cloud := cloudName
      region := region
      instanceType := merged.instanceType
      image := merged.image
      user := merged.user <|> cloud.user
      managed := managed
      ephemeral := merged.ephemeral.getD false
      hosts := hosts
      parameters := merged.parameters }

/-- The environment and the parameters of a role. The cloud is chosen first, since its defaults
are the lowest layer. -/
def planRole (clouds : Dict CloudConfig) (defaults : RoleOverrides) (role : String)
    (overrides : RoleOverrides) : Except ConfigError (Environment × ComponentParams) :=
  match (defaults.merge overrides).cloud with
  | none => .error (.missingField role "cloud")
  | some cloudName =>
    match clouds.find? cloudName with
    | none => .error (.unknownCloud role cloudName)
    | some cloud => do
      let merged := (cloud.defaults.merge defaults).merge overrides
      let params ← componentParams role cloudName cloud merged
      return (Environment.ofRegion cloudName cloud.client params.region, params)

def place (environments : List Environment) (components : Dict (Dict ComponentParams))
    (role : String) (env : Environment) (params : ComponentParams) :
    List Environment × Dict (Dict ComponentParams) :=
  (if environments.contains env then environments else environments ++ [env],
    components.insert env.name (((components.find? env.name).getD ∅).insert role params))

def planRoles (clouds : Dict CloudConfig) (defaults : RoleOverrides) :
    List (String × RoleOverrides) → List Environment → Dict (Dict ComponentParams) →
    Except ConfigError (List Environment × Dict (Dict ComponentParams))
  | [], environments, components => .ok (environments, components)
  | (role, overrides) :: rest, environments, components => do
    let (env, params) ← planRole clouds defaults role overrides
    let (environments, components) := place environments components role env params
    planRoles clouds defaults rest environments components

/-- Plans an implementation; roles that its topology does not have are left out. -/
def plan (d : Documents) (implementation : String) : Except ConfigError Plan :=
  match d.implementations.find? implementation with
  | none => .error (.unknownImplementation implementation)
  | some config =>
    match d.topologies.find? config.topology with
    | none => .error (.unknownTopology implementation config.topology)
    | some topology => do
      let roles := config.roles.entries.filter fun e => topology.roles.contains e.1
      let (environments, components) ← planRoles d.clouds config.defaults roles [] ∅
      return {
        implementation := implementation
        topologyName := config.topology
        topology := topology
        environments := environments
        components := components
        sharedStorage := config.sharedStorage }

end Documents

end BenchCluster
