import BenchCluster.Remote.SshOptions
import BenchCluster.Retry.Policy
import BenchCluster.Cluster.Codec

/-! # Settings

The timeouts, retry policies and other knobs of one invocation.
-/

namespace BenchCluster

structure MakeSettings where
  script : Option String := none
  deriving DecidableEq, Repr, Inhabited

/-- The knobs of one invocation. -/
structure Settings where
  parallelism : Option UInt64 := none
  commandTimeoutSecs : UInt64 := 1800
  cloudTimeoutSecs : UInt64 := 600
  ssh : SshOptions := {}
  remoteRetry : RetryPolicy := .remoteDefault
  cloudRetry : RetryPolicy := .cloudDefault
  make : MakeSettings := {}
  deriving DecidableEq, Repr, Inhabited

namespace MakeSettings

def encode (s : MakeSettings) : Data := .table [("script", .ofText? s.script)]

def decode : Decoder MakeSettings := fun d => do
  let r ← Record.read? false ["script"] d
  return { script := ← r.optional "script" .text }

end MakeSettings

namespace Settings

/-- The number of workers of a pool, where it is set; there is always one. -/
def workerCount (s : Settings) : Option Nat := s.parallelism.map fun n => max n.toNat 1

/-- The limit on a single attempt of a command on a host. -/
def commandTimeout (s : Settings) : Duration := .ofSeconds s.commandTimeoutSecs.toNat

def cloudTimeout (s : Settings) : Duration := .ofSeconds s.cloudTimeoutSecs.toNat

def fields : List String :=
  ["parallelism", "command_timeout_secs", "cloud_timeout_secs", "ssh", "remote_retry",
    "cloud_retry", "make"]

def encode (s : Settings) : Data :=
  .table [("parallelism", .ofOptional (fun n => .integer n.toNat) s.parallelism),
    ("command_timeout_secs", .integer s.commandTimeoutSecs.toNat),
    ("cloud_timeout_secs", .integer s.cloudTimeoutSecs.toNat), ("ssh", s.ssh.encode),
    ("remote_retry", s.remoteRetry.encode), ("cloud_retry", s.cloudRetry.encode),
    ("make", s.make.encode)]

/-- Reads the record of the settings; what is missing keeps its default. -/
def decode : Decoder Settings := fun d => do
  let r ← Record.read? false fields d
  return {
    parallelism := ← r.optional "parallelism" .uint64
    commandTimeoutSecs := ← r.withDefault "command_timeout_secs" .uint64 1800
    cloudTimeoutSecs := ← r.withDefault "cloud_timeout_secs" .uint64 600
    ssh := ← r.withDefault "ssh" SshOptions.decode {}
    remoteRetry := ← r.withDefault "remote_retry" RetryPolicy.decode .remoteDefault
    cloudRetry := ← r.withDefault "cloud_retry" RetryPolicy.decode .cloudDefault
    make := ← r.withDefault "make" MakeSettings.decode {} }

end Settings

end BenchCluster
