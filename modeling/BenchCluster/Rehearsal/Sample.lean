import BenchCluster.Config.Documents
import BenchCluster.Config.Settings

/-! # A sample configuration

Documents with one implementation for each kind of cluster, and settings that keep rehearsals
short.
-/

namespace BenchCluster.Rehearsal.Sample

def text (lines : List String) : String := "\n".intercalate lines ++ "\n"

def topologies : String :=
  text [
    "[three_tier.driver.proxy.backend]",
    "",
    "[shared.driver1.proxy1.backend]",
    "[shared.driver2.proxy2.backend]",
    "",
    "[flat.driver]",
    "[flat.backend]"]

def implementations : String :=
  text [
    "[standard]",
    "topology = \"three_tier\"",
    "shared_storage = [\x7b name = \"data\", size_gb = 100, mount = \"/data\" \x7d]",
    "",
    "[standard.defaults]",
    "cloud = \"fake\"",
    "region = \"r1\"",
    "instance_type = \"small\"",
    "",
    "[standard.roles.backend]",
    "instance_type = \"large\"",
    "[standard.roles.backend.parameters]",
    "install = \"install-backend\"",
    "db_user = \"bench\"",
    "database = \"bench\"",
    "port = \"5432\"",
    "",
    "[standard.roles.proxy]",
    "[standard.roles.proxy.parameters]",
    "install = \"install-proxy\"",
    "post_install = \"point-proxy \x7btarget_hosts\x7d:\x7btarget_port\x7d\"",
    "listen_port = \"6432\"",
    "",
    "[standard.roles.driver]",
    "count = 2",
    "ephemeral = true",
    "[standard.roles.driver.parameters]",
    "install = \"install-driver\"",
    "clean = \"clean-driver\"",
    "stop = \"stop-driver\"",
    "",
    "[triple_backend]",
    "topology = \"flat\"",
    "",
    "[triple_backend.defaults]",
    "cloud = \"fake\"",
    "region = \"r1\"",
    "",
    "[triple_backend.roles.backend]",
    "count = 3",
    "[triple_backend.roles.backend.parameters]",
    "port = \"5432\"",
    "",
    "[triple_backend.roles.driver]",
    "implementation = \"driver\"",
    "",
    "[split]",
    "topology = \"three_tier\"",
    "shared_storage = [\x7b name = \"data\", size_gb = 10 \x7d, " ++
      "\x7b name = \"logs\", size_gb = 5 \x7d]",
    "",
    "[split.defaults]",
    "cloud = \"fake\"",
    "region = \"r1\"",
    "",
    "[split.roles.backend]",
    "[split.roles.proxy]",
    "[split.roles.driver]",
    "region = \"r2\"",
    "",
    "[external]",
    "topology = \"flat\"",
    "",
    "[external.defaults]",
    "cloud = \"lab\"",
    "",
    "[external.roles.backend]",
    "count = 3",
    "hosts = [\"db1.example.com:2222\", \"db2.example.com\"]",
    "[external.roles.backend.parameters]",
    "port = \"5432\"",
    "",
    "[external.roles.driver]",
    "cloud = \"fake\"",
    "region = \"r1\"",
    "",
    "[shared]",
    "topology = \"shared\"",
    "",
    "[shared.defaults]",
    "cloud = \"fake\"",
    "region = \"r1\"",
    "",
    "[shared.roles.backend]",
    "count = 2",
    "[shared.roles.proxy1]",
    "implementation = \"proxy\"",
    "[shared.roles.proxy1.parameters]",
    "post_install = \"point-proxy \x7btarget_hosts\x7d\"",
    "listen_port = \"6432\"",
    "[shared.roles.proxy2]",
    "implementation = \"proxy\"",
    "[shared.roles.proxy2.parameters]",
    "post_install = \"point-proxy \x7btarget_hosts\x7d\"",
    "listen_port = \"6433\"",
    "[shared.roles.driver1]",
    "implementation = \"driver\"",
    "[shared.roles.driver2]",
    "implementation = \"driver\""]

def clouds : String :=
  text [
    "[fake]",
    "client = \"fake\"",
    "user = \"bench\"",
    "",
    "[fake.defaults]",
    "image = \"ubuntu-22.04\"",
    "instance_type = \"tiny\"",
    "",
    "[lab]",
    "client = \"external\"",
    "",
    "[lab.defaults]",
    "region = \"lab\"",
    "managed = false"]

def documents : Except ConfigError Documents :=
  Documents.ofTexts topologies implementations clouds

/-- Settings with a small pool, short limits and quick retries. -/
def settings : Settings :=
  { parallelism := some 4
    commandTimeoutSecs := 5
    cloudTimeoutSecs := 5
    remoteRetry := .constant 3 10
    cloudRetry := .once }

end BenchCluster.Rehearsal.Sample
