import BenchCluster.Cluster.Codec

/-! # Role overrides

The fields of a role that any layer of the configuration may set. Layers are laid on top of each
other; where the upper one sets a field it wins, and parameters are layered key by key.
-/

namespace BenchCluster

/-- One layer of role fields. -/
structure RoleOverrides where
  implementation : Option String := none
  count : Option UInt32 := none
  cloud : Option String := none
  region : Option String := none
  instanceType : Option String := none
  image : Option String := none
  user : Option String := none
  managed : Option Bool := none
  ephemeral : Option Bool := none
  hosts : Option (List String) := none
  parameters : Dict String := ∅
  deriving DecidableEq, Repr, Inhabited

namespace RoleOverrides

def empty : RoleOverrides := {}

/-- Lays the second layer on top of the first. -/
def merge (base upper : RoleOverrides) : RoleOverrides :=
  { implementation := upper.implementation <|> base.implementation
    count := upper.count <|> base.count
    cloud := upper.cloud <|> base.cloud
    region := upper.region <|> base.region
    instanceType := upper.instanceType <|> base.instanceType
    image := upper.image <|> base.image
    user := upper.user <|> base.user
    managed := upper.managed <|> base.managed
    ephemeral := upper.ephemeral <|> base.ephemeral
    hosts := upper.hosts <|> base.hosts
    parameters := base.parameters.union upper.parameters }

def fields : List String :=
  ["implementation", "count", "cloud", "region", "instance_type", "image", "user", "managed",
    "ephemeral", "hosts", "parameters"]

def encode (o : RoleOverrides) : Data :=
  .table [("implementation", .ofText? o.implementation),
    ("count", .ofOptional (fun n => .integer n.toNat) o.count),
    ("cloud", .ofText? o.cloud), ("region", .ofText? o.region),
    ("instance_type", .ofText? o.instanceType), ("image", .ofText? o.image),
    ("user", .ofText? o.user), ("managed", .ofOptional .bool o.managed),
    ("ephemeral", .ofOptional .bool o.ephemeral), ("hosts", .ofOptional .ofTexts o.hosts),
    ("parameters", .ofDict .text o.parameters)]

/-- Reads the record of a layer, which must have no other fields. -/
def decode : Decoder RoleOverrides := fun d => do
  let r ← Record.read? true fields d
  return {
    implementation := ← r.nullable "implementation" .text
    count := ← r.nullable "count" .uint32
    cloud := ← r.nullable "cloud" .text
    region := ← r.nullable "region" .text
    instanceType := ← r.nullable "instance_type" .text
    image := ← r.nullable "image" .text
    user := ← r.nullable "user" .text
    managed := ← r.nullable "managed" .bool
    ephemeral := ← r.nullable "ephemeral" .bool
    hosts := ← r.nullable "hosts" (.list .text)
    parameters := ← r.withDefault "parameters" (.dict .text) ∅ }

end RoleOverrides

end BenchCluster
