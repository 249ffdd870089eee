import BenchCluster.Cluster.Descriptor
import BenchCluster.Data.Decode
import BenchCluster.Json.Reader
import BenchCluster.Json.Printer

/-! # The written form of descriptors

Every part of a descriptor is a record whose fields stand in their declared order; a value that
is not set is written as nothing. `ClusterDescriptor.toText` and `ofText?` are the two directions
for a whole file.
-/

namespace BenchCluster

namespace Data

def ofOptional {α : Type} (encode : α → Data) : Option α → Data
  | some a => encode a
  | none => .null

def ofText? (s : Option String) : Data := ofOptional .text s

def ofTexts (l : List String) : Data := .list (l.map .text)

def ofDict {α : Type} (encode : α → Data) (d : Dict α) : Data :=
  .table (d.entries.map fun e => (e.1, encode e.2))

end Data

/-! ## Environments and role parameters -/

namespace Environment

def encode (e : Environment) : Data :=
  .table [("name", .text e.name), ("cloud", .text e.cloud), ("client", .text e.client),
    ("region", .text e.region)]

def decode : Decoder Environment := fun d => do
  let r ← Record.read? false ["name", "cloud", "client", "region"] d
  return {
    name := ← r.required "name" .text
    cloud := ← r.required "cloud" .text
    client := ← r.required "client" .text
    region := ← r.required "region" .text }

end Environment

namespace ComponentParams

def fields : List String :=
  ["role", "implementation", "count", "cloud", "region", "instance_type", "image", "user",
    "managed", "ephemeral", "hosts", "parameters"]

def encode (p : ComponentParams) : Data :=
  .table [("role", .text p.role), ("implementation", .text p.implementation),
    ("count", .integer p.count.toNat), ("cloud", .text p.cloud), ("region", .text p.region),
    ("instance_type", .ofText? p.instanceType), ("image", .ofText? p.image),
    ("user", .ofText? p.user), ("managed", .bool p.managed), ("ephemeral", .bool p.ephemeral),
    ("hosts", .ofTexts p.hosts), ("parameters", .ofDict .text p.parameters)]

def decode : Decoder ComponentParams := fun d => do
  let r ← Record.read? false fields d
  return {
    role := ← r.required "role" .text
    implementation := ← r.required "implementation" .text
    count := ← r.required "count" .uint32
    cloud := ← r.required "cloud" .text
    region := ← r.required "region" .text
    instanceType := ← r.optional "instance_type" .text
    image := ← r.optional "image" .text
    user := ← r.optional "user" .text
    managed := ← r.required "managed" .bool
    ephemeral := ← r.required "ephemeral" .bool
    hosts := ← r.withDefault "hosts" (.list .text) []
    parameters := ← r.withDefault "parameters" (.dict .text) ∅ }

end ComponentParams

/-! ## Volumes and machines -/

namespace VolumeSpec

def encode (s : VolumeSpec) : Data :=
  .table [("name", .text s.name), ("size_gb", .integer s.sizeGb.toNat), ("mount", .ofText? s.mount)]

def decode : Decoder VolumeSpec := fun d => do
  let r ← Record.read? false ["name", "size_gb", "mount"] d
  return {
    name := ← r.required "name" .text
    sizeGb := ← r.required "size_gb" .uint32
    mount := ← r.optional "mount" .text }

end VolumeSpec

namespace Volume

def encode (v : Volume) : Data :=
  .table [("id", .text v.id), ("name", .text v.name), ("environment", .text v.environment),
    ("size_gb", .integer v.sizeGb.toNat), ("mount", .ofText? v.mount), ("shared", .bool v.shared)]

def decode : Decoder Volume := fun d => do
  let r ← Record.read? false ["id", "name", "environment", "size_gb", "mount", "shared"] d
  return {
    id := ← r.required "id" .text
    name := ← r.required "name" .text
    environment := ← r.required "environment" .text
    sizeGb := ← r.required "size_gb" .uint32
    mount := ← r.optional "mount" .text
    shared := ← r.required "shared" .bool }

end Volume

namespace Machine

def fields : List String :=
  ["id", "name", "role", "implementation", "environment", "public_address", "private_address",
    "user", "managed", "provisioned", "ephemeral", "storage"]

def encode (m : Machine) : Data :=
  .table [("id", .text m.id), ("name", .text m.name), ("role", .text m.role),
    ("implementation", .text m.implementation), ("environment", .text m.environment),
    ("public_address", .ofText? m.publicAddress), ("private_address", .ofText? m.privateAddress),
    ("user", .ofText? m.user), ("managed", .bool m.managed), ("provisioned", .bool m.provisioned),
    ("ephemeral", .bool m.ephemeral), ("storage", .list (m.storage.map Volume.encode))]

def decode : Decoder Machine := fun d => do
  let r ← Record.read? false fields d
  return {
    id := ← r.required "id" .text
    name := ← r.required "name" .text
    role := ← r.required "role" .text
    implementation := ← r.required "implementation" .text
    environment := ← r.required "environment" .text
    publicAddress := ← r.optional "public_address" .text
    privateAddress := ← r.optional "private_address" .text
    user := ← r.optional "user" .text
    managed := ← r.required "managed" .bool
    provisioned := ← r.required "provisioned" .bool
    ephemeral := ← r.required "ephemeral" .bool
    storage := ← r.withDefault "storage" (.list Volume.decode) [] }

end Machine

/-! ## Targets and states -/

namespace SslMaterial

def encode (s : SslMaterial) : Data :=
  .table [("ca", .ofText? s.ca), ("cert", .ofText? s.cert), ("key", .ofText? s.key)]

def decode : Decoder SslMaterial := fun d => do
  let r ← Record.read? false ["ca", "cert", "key"] d
  return {
    ca := ← r.optional "ca" .text
    cert := ← r.optional "cert" .text
    key := ← r.optional "key" .text }

end SslMaterial

namespace ConnectionTarget

def fields : List String := ["hosts", "user", "password", "database", "port", "dialect", "ssl"]

def encode (t : ConnectionTarget) : Data :=
  .table [("hosts", .ofTexts t.hosts), ("user", .ofText? t.user), ("password", .ofText? t.password),
    ("database", .ofText? t.database), ("port", .ofOptional (fun p => .integer p.toNat) t.port),
    ("dialect", .text t.dialect), ("ssl", .ofOptional SslMaterial.encode t.ssl)]

def decode : Decoder ConnectionTarget := fun d => do
  let r ← Record.read? false fields d
  return {
    hosts := ← r.required "hosts" (.list .text)
    user := ← r.optional "user" .text
    password := ← r.optional "password" .text
    database := ← r.optional "database" .text
    port := ← r.optional "port" .uint16
    dialect := ← r.required "dialect" .text
    ssl := ← r.optional "ssl" SslMaterial.decode }

end ConnectionTarget

namespace ClusterState

def encode (s : ClusterState) : Data := .text s.name

def decode : Decoder ClusterState := .oneOf (all.map fun s => (s.name, s))

end ClusterState

namespace Timestamp

def encode (t : Timestamp) : Data := .text t.toText

def decode : Decoder Timestamp := fun d => do
  let text ← Decoder.text d
  read? text

end Timestamp

/-! ## Descriptors -/

namespace ClusterDescriptor

def fields : List String :=
  ["cluster_name", "state", "implementation", "topology_name", "topology", "topology_map",
    "environments", "components", "members", "connection_target", "volume_specs",
    "shared_storage", "created_at"]

/-- The levels that a written topology may have. -/
def maxTopologyDepth : Nat := 126

def encode (d : ClusterDescriptor) : Data :=
  .table [("cluster_name", .text d.clusterName), ("state", d.state.encode),
    ("implementation", .text d.implementation), ("topology_name", .text d.topologyName),
    ("topology", d.topology.encode), ("topology_map", .ofDict .text d.topologyMap),
    ("environments", .list (d.environments.map Environment.encode)),
    ("components", .ofDict (.ofDict ComponentParams.encode) d.components),
    ("members", .ofDict Machine.encode d.members),
    ("connection_target", .ofOptional ConnectionTarget.encode d.connectionTarget),
    ("volume_specs", .list (d.volumeSpecs.map VolumeSpec.encode)),
    ("shared_storage", .list (d.sharedStorage.map Volume.encode)),
    ("created_at", d.createdAt.encode)]

/-- Reads a topology that is not nested too deeply. -/
def decodeTopology : Decoder Template := fun d => do
  let t ← Template.decode d
  if t.depth ≤ maxTopologyDepth then some t else none

def decode : Decoder ClusterDescriptor := fun d => do
  let r ← Record.read? false fields d
  return {
    clusterName := ← r.required "cluster_name" .text
    state := ← r.required "state" ClusterState.decode
    implementation := ← r.required "implementation" .text
    topologyName := ← r.required "topology_name" .text
    topology := ← r.required "topology" decodeTopology
    topologyMap := ← r.required "topology_map" (.dict .text)
    environments := ← r.required "environments" (.list Environment.decode)
    components := ← r.required "components" (.dict (.dict ComponentParams.decode))
    members := ← r.required "members" (.dict Machine.decode)
    connectionTarget := ← r.optional "connection_target" ConnectionTarget.decode
    volumeSpecs := ← r.withDefault "volume_specs" (.list VolumeSpec.decode) []
    sharedStorage := ← r.withDefault "shared_storage" (.list Volume.decode) []
    createdAt := ← r.required "created_at" Timestamp.decode }

def toText (d : ClusterDescriptor) : String := Json.pretty d.encode

def ofText? (text : String) : Option ClusterDescriptor := (Json.read? text).bind decode

end ClusterDescriptor

end BenchCluster
