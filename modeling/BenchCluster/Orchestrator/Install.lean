import BenchCluster.Orchestrator.Roles
import BenchCluster.Text.Substitution

/-! # Preparing and installing a cluster

Preparation runs one script on every managed machine. Installation configures the roles of one
environment after the other, installs all of them and works out where clients connect.
-/

namespace BenchCluster

/-- The script with which machines are prepared unless the settings name another. -/
def standardMakeScript : String :=
  "if command -v apt-get >/dev/null 2>&1; then\n" ++
  "    export DEBIAN_FRONTEND=noninteractive\n" ++
  "    apt-get update -q\n" ++
  "    apt-get install -q -y chrony curl rsync\n" ++
  "elif command -v dnf >/dev/null 2>&1; then\n" ++
  "    dnf install -q -y chrony curl rsync\n" ++
  "fi\n" ++
  "systemctl enable --now chronyd 2>/dev/null || " ++
  "systemctl enable --now chrony 2>/dev/null || true\n" ++
  "sysctl -q -w net.core.somaxconn=4096\n" ++
  "sysctl -q -w net.ipv4.ip_local_port_range='1024 65000'"

def stripReturn (line : List Char) : List Char :=
  if line.getLast? = some '\r' then line.dropLast else line

/-- The lines of a script. The text behind the last line end is a line unless it is empty. -/
def scriptLines (text : String) : List String :=
  let pieces := Text.splitChars '\n' text.toList
  let ended := pieces.dropLast.map stripReturn
  let last := (pieces.getLast?.toList).filter fun line => !line.isEmpty
  (ended ++ last).map String.ofList

namespace Surroundings

variable {ω : Type}

def makeCommand (s : Surroundings ω) : RemoteCommand :=
  .script (scriptLines (s.settings.make.script.getD standardMakeScript))

def make (s : Surroundings ω) (cluster : String) : Work ω ClusterDescriptor := do
  let d ← s.loadFor cluster .make
  let hosts ← Work.ofExcept id
    (hostsOf s.defaultPort (d.members.values.filter Machine.managed))
  if hosts.isEmpty then return d
  let reply ← Work.ofAction (s.executor.run (s.execOptions true) hosts s.makeCommand)
  let _ ← Work.ofExcept .remote reply.result
  return d

end Surroundings

/-! ## The connection target -/

variable {ω : Type}

/-- The proxy side of the role directly above another one, if that has one. -/
def proxyAbove? (tree : TopologyTree) (roles : List (RoleEntry ω)) (role : String) :
    Option (ConnectionTarget → Action ω (Except RoleError ConnectionTarget)) := do
  let parent ← tree.parentRole role
  let entry ← roles.find? fun entry => entry.role = parent
  entry.implementation.proxy

/-- Leads each installed target through the proxy above it; the last one is kept. -/
def chainTargets (tree : TopologyTree) (roles : List (RoleEntry ω)) :
    List (String × Option ConnectionTarget) → Option ConnectionTarget →
    Work ω (Option ConnectionTarget)
  | [], candidate => return candidate
  | (_, none) :: rest, candidate => chainTargets tree roles rest candidate
  | (role, some target) :: rest, _ => do
    match proxyAbove? tree roles role with
    | none => chainTargets tree roles rest (some target)
    | some postInstall =>
      let chained ← Work.ofFallible .role (postInstall target)
      chainTargets tree roles rest (some chained)

def installedTargets (results : List (String × Except RoleError (Option ConnectionTarget))) :
    List (String × Option ConnectionTarget) :=
  results.map fun (role, result) =>
    (role, match result with | .ok target => target | .error _ => none)

namespace Surroundings

def configureEnvironment (s : Surroundings ω) (roles : List (RoleEntry ω)) (env : Environment) :
    Work ω Unit := do
  s.checkInterrupted
  runPhase .configure Role.configure (roles.filter fun entry => entry.environment = env.name)

/-- Installs every role and works out where clients connect. -/
def install (s : Surroundings ω) (cluster : String) : Work ω ClusterDescriptor := do
  let d ← s.loadFor cluster .install
  let (tree, roles) ← Work.ofExcept id (s.rolesOf d)
  d.environments.forM (s.configureEnvironment roles)
  s.checkInterrupted
  let results ← Work.ofAction (onEveryRole Role.install roles)
  Work.ofExcept id (checkPhase .install results)
  s.checkInterrupted
  let target ← chainTargets tree roles (installedTargets results) none
  let after := { d with
    connectionTarget := some (target.getD .placeholder), state := .ready }
  s.save after
  return after

end Surroundings

end BenchCluster
