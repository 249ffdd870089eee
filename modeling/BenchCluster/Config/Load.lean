import BenchCluster.Config.Plan
import BenchCluster.Config.Settings
import BenchCluster.FileTree

/-! # Reading the configuration directory -/

namespace BenchCluster

def readDocument {α : Type} (files : FileTree) (path : String) (decode : Decoder α) :
    Except ConfigError α :=
  match files.readText path with
  | .ok text => Documents.parse path decode text
  | .error _ => .error (.unreadable path)

def loadClouds (files : FileTree) (directory : String) :
    Except ConfigError (Dict CloudConfig) :=
  readDocument files (joinPath directory Documents.cloudsFile) Documents.decodeClouds

def Documents.load (files : FileTree) (directory : String) : Except ConfigError Documents := do
  return {
    topologies :=
      ← readDocument files (joinPath directory topologiesFile) decodeTopologies
    implementations :=
      ← readDocument files (joinPath directory implementationsFile) decodeImplementations
    clouds := ← loadClouds files directory }

def Settings.fileName : String := "settings.toml"

/-- The settings of a configuration directory; the file may be missing. -/
def Settings.load (files : FileTree) (directory : String) : Except ConfigError Settings :=
  let path := joinPath directory fileName
  if files.pathExists path then readDocument files path decode else .ok {}

end BenchCluster
