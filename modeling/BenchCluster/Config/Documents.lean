import BenchCluster.Config.Overrides
import BenchCluster.Toml.Document

/-! # Configuration documents

The three documents of a configuration: named topologies, implementations that fill a topology
with parameters, and clouds.
-/

namespace BenchCluster

/-- How the roles of a topology are to be run. -/
structure ImplementationConfig where
  topology : String
  sharedStorage : List VolumeSpec := []
  defaults : RoleOverrides := {}
  roles : Dict RoleOverrides := ∅
  deriving DecidableEq, Repr, Inhabited

/-- A cloud: the client that talks to it, its command templates and the defaults of its roles. -/
structure CloudConfig where
  client : String
  user : Option String := none
  commands : Dict String := ∅
  defaults : RoleOverrides := {}
  deriving DecidableEq, Repr, Inhabited

/-- The documents of a configuration. -/
structure Documents where
  topologies : Dict Template := ∅
  implementations : Dict ImplementationConfig := ∅
  clouds : Dict CloudConfig := ∅
  deriving Repr, Inhabited

/-- The ways in which the configuration can be wrong. -/
inductive ConfigError
  | unreadable (path : String)
  | malformed (path : String)
  | unknownImplementation (name : String)
  | unknownTopology (implementation topology : String)
  | unknownCloud (role cloud : String)
  | missingField (role field : String)
  | noHosts (role : String)
  deriving DecidableEq, Repr

def ConfigError.message : ConfigError → String
  | .unreadable path => s!"could not read '{path}'"
  | .malformed path => s!"could not parse '{path}'"
  | .unknownImplementation name => s!"unknown implementation '{name}'"
  | .unknownTopology name wanted =>
    s!"implementation '{name}' uses unknown topology '{wanted}'"
  | .unknownCloud role cloud => s!"role '{role}' uses unknown cloud '{cloud}'"
  | .missingField role field => s!"role '{role}' does not set '{field}'"
  | .noHosts role => s!"role '{role}' is not managed but lists no hosts"

namespace ImplementationConfig

def encode (i : ImplementationConfig) : Data :=
  .table [("topology", .text i.topology),
    ("shared_storage", .list (i.sharedStorage.map VolumeSpec.encode)),
    ("defaults", i.defaults.encode), ("roles", .ofDict RoleOverrides.encode i.roles)]

def decode : Decoder ImplementationConfig := fun d => do
  let r ← Record.read? false ["topology", "shared_storage", "defaults", "roles"] d
  return {
    topology := ← r.required "topology" .text
    sharedStorage := ← r.withDefault "shared_storage" (.list VolumeSpec.decode) []
    defaults := ← r.withDefault "defaults" RoleOverrides.decode {}
    roles := ← r.withDefault "roles" (.dict RoleOverrides.decode) ∅ }

end ImplementationConfig

namespace CloudConfig

def encode (c : CloudConfig) : Data :=
  .table [("client", .text c.client), ("user", .ofText? c.user),
    ("commands", .ofDict .text c.commands), ("defaults", c.defaults.encode)]

def decode : Decoder CloudConfig := fun d => do
  let r ← Record.read? false ["client", "user", "commands", "defaults"] d
  return {
    client := ← r.required "client" .text
    user := ← r.optional "user" .text
    commands := ← r.withDefault "commands" (.dict .text) ∅
    defaults := ← r.withDefault "defaults" RoleOverrides.decode {} }

end CloudConfig

namespace Documents

def topologiesFile : String := "topologies.toml"

def implementationsFile : String := "implementations.toml"

def cloudsFile : String := "clouds.toml"

def parse {α : Type} (path : String) (decode : Decoder α) (text : String) :
    Except ConfigError α :=
  match (Toml.read? text).bind decode with
  | some a => .ok a
  | none => .error (.malformed path)

def decodeTopologies : Decoder (Dict Template) := .dict Template.decode

def decodeImplementations : Decoder (Dict ImplementationConfig) := .dict ImplementationConfig.decode

def decodeClouds : Decoder (Dict CloudConfig) := .dict CloudConfig.decode

/-- Reads the three texts, one after the other. -/
def ofTexts (topologies implementations clouds : String) : Except ConfigError Documents := do
  return {
    topologies := ← parse topologiesFile decodeTopologies topologies
    implementations := ← parse implementationsFile decodeImplementations implementations
    clouds := ← parse cloudsFile decodeClouds clouds }

def encode (d : Documents) : Data :=
  .table [("topologies", .ofDict Template.encode d.topologies),
    ("implementations", .ofDict ImplementationConfig.encode d.implementations),
    ("clouds", .ofDict CloudConfig.encode d.clouds)]

def decode : Decoder Documents := fun d => do
  let r ← Record.read? false ["topologies", "implementations", "clouds"] d
  return {
    topologies := ← r.required "topologies" decodeTopologies
    implementations := ← r.required "implementations" decodeImplementations
    clouds := ← r.required "clouds" decodeClouds }

end Documents

end BenchCluster
