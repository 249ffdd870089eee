import BenchCluster.Dict

/-! # Environments, role parameters, machines and volumes

The parts of a cluster: where its roles live, how each of them is to be run, and what the clouds
have provided for it.
-/

namespace BenchCluster

/-- A region of a cloud that part of a cluster lives in. -/
structure Environment where
  name : String
  cloud : String
  client : String
  region : String
  deriving DecidableEq, Repr, Inhabited

/-- The environment of a region, named after the cloud and the region. -/
def Environment.ofRegion (cloud client region : String) : Environment :=
  { name := cloud ++ "-" ++ region, cloud := cloud, client := client, region := region }

/-- The merged configuration of one role. The hosts are those of machines that exist already. -/
structure ComponentParams where
  role : String
  implementation : String
  count : UInt32
  cloud : String
  region : String
  instanceType : Option String := none
  image : Option String := none
  user : Option String := none
  managed : Bool
  ephemeral : Bool
  hosts : List String := []
  parameters : Dict String := ∅
  deriving DecidableEq, Repr, Inhabited

def ComponentParams.parameter (p : ComponentParams) (key : String) : Option String :=
  p.parameters.find? key

/-- A volume that every environment with provisioned members should have once. -/
structure VolumeSpec where
  name : String
  sizeGb : UInt32
  mount : Option String := none
  deriving DecidableEq, Repr, Inhabited

structure Volume where
  id : String
  name : String
  environment : String
  sizeGb : UInt32
  mount : Option String := none
  shared : Bool
  deriving DecidableEq, Repr, Inhabited

/-- A machine of a cluster. Its name is the instance name it runs under. -/
structure Machine where
  id : String
  name : String
  role : String
  implementation : String
  environment : String
  publicAddress : Option String := none
  privateAddress : Option String := none
  user : Option String := none
  managed : Bool
  provisioned : Bool
  ephemeral : Bool
  storage : List Volume := []
  deriving DecidableEq, Repr, Inhabited

/-- The address at which a machine is reached, the public one if it has one. -/
def Machine.address (m : Machine) : Option String := m.publicAddress <|> m.privateAddress

end BenchCluster
