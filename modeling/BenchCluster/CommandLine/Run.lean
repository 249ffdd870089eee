import BenchCluster.CommandLine.Arguments
import BenchCluster.Config.Load
import BenchCluster.Orchestrator.Run
import BenchCluster.Remote.Ssh

/-! # Running a command

What one run of the program does and prints. Files, variables and programs are seen through a
`Console`, so that a run on real files and a rehearsal are the same computation.
-/

namespace BenchCluster.CommandLine

/-- What a run sees of the world outside. -/
structure Console (ω : Type) where
  files : ω → FileTree
  /-- The value of a variable, if it is set. -/
  valueOf : String → ω → Option String
  store : Store → StoreAccess ω
  interrupted : ω → Bool
  now : ω → Timestamp
  programs : Programs ω

/-- What a run leaves on the terminal, and its exit status. -/
structure Outcome where
  exitStatus : Nat
  stdout : List String := []
  stderr : List String := []
  deriving DecidableEq, Repr, Inhabited

namespace Outcome

def ofLines (lines : List String) : Outcome := { exitStatus := 0, stdout := lines }

def ofFailure (line : String) : Outcome := { exitStatus := 1, stderr := [line] }

end Outcome

structure Directories where
  config : String
  state : String
  deriving DecidableEq, Repr

def standardConfigDir : String := "/etc/benchctl"

def standardStateDir : String := "/var/lib/benchctl"

def configDirVariable : String := "BENCHCTL_CONFIG_DIR"

def stateDirVariable : String := "BENCHCTL_STATE_DIR"

namespace Console

variable {ω : Type}

/-- The directories of a run: from its arguments, else from variables, else the standard ones. -/
def directories (c : Console ω) (a : Arguments) (w : ω) : Directories :=
  { config := (a.configDir <|> c.valueOf configDirVariable w).getD standardConfigDir
    state := (a.stateDir <|> c.valueOf stateDirVariable w).getD standardStateDir }

/-- The surroundings of a run, with the built-in clouds and roles and the remote shell. -/
def surroundings (c : Console ω) (dirs : Directories) (settings : Settings)
    (clouds : Dict CloudConfig) (w : ω) : Surroundings ω :=
  let fileExists (path : String) : StateM ω Bool := do return (c.files (← get)).pathExists path
  let executor : RemoteExecutor ω :=
    { transport := Ssh.transport c.programs fileExists settings.ssh }
  { store := c.store ⟨dirs.state⟩
    interrupted := c.interrupted
    now := c.now
    settings := settings
    cloudConfigs := clouds
    clouds := .builtin c.programs .zero
    roles := .builtin executor
    executor := executor
    defaultPort := Host.portOfVariable (c.valueOf Host.portVariable w) }

def verb : Command → String
  | .configure _ _ _ => "configure"
  | .all _ _ _ => "bring up"
  | .allocate _ _ => "allocate"
  | .make _ => "prepare"
  | .install _ => "install"
  | .clean _ => "clean up"
  | .start _ => "start"
  | .stop _ => "stop"
  | .status _ => "load"

/-- Runs an operation and says what it has done, or why it could not. -/
def perform (work : Work ω (List String)) (command : Command) (cluster : String) (w : ω) :
    Outcome × ω :=
  let (result, inv) := (work.run : Action ω _).run { outside := w }
  match result with
  | .ok lines => (.ofLines lines, inv.outside)
  | .error e =>
    (.ofFailure s!"Could not {verb command} cluster '{cluster}': {e.message}", inv.outside)

def statusLine (store : Store) (files : FileTree) (name : String) : String :=
  match store.load files name with
  | .ok d => s!"{name}: {d.state.name} ({d.implementation}, {d.members.size} member(s))"
  | .error e => s!"{name}: unreadable ({e.message})"

def showStatus (dirs : Directories) (files : FileTree) (cluster : Option String) : Outcome :=
  let store : Store := ⟨dirs.state⟩
  match cluster with
  | some name =>
    match store.load files name with
    | .ok d => .ofLines d.summary
    | .error e => .ofFailure s!"Could not load cluster '{name}': {e.message}"
  | none =>
    match store.list files with
    | .error e => .ofFailure ("Could not list clusters: " ++ e.message)
    | .ok [] => .ofLines [s!"no clusters configured in {dirs.state}"]
    | .ok names => .ofLines (names.map (statusLine store files))

/-- Runs a command that needs the documents. -/
def withDocuments (c : Console ω) (dirs : Directories) (settings : Settings) (command : Command)
    (cluster : String) (work : Surroundings ω → Documents → Work ω ClusterDescriptor) (w : ω) :
    Outcome × ω :=
  match Documents.load (c.files w) dirs.config with
  | .error e =>
    (.ofFailure s!"Could not load configuration from '{dirs.config}': {e.message}", w)
  | .ok documents =>
    let s := c.surroundings dirs settings documents.clouds w
    perform (ClusterDescriptor.summary <$> work s documents) command cluster w

/-- Runs a command on a cluster that has been configured; only the clouds are read. -/
def withClouds (c : Console ω) (dirs : Directories) (settings : Settings) (command : Command)
    (cluster : String) (work : Surroundings ω → Work ω (List String)) (w : ω) : Outcome × ω :=
  match loadClouds (c.files w) dirs.config with
  | .error e => (.ofFailure ("Could not load cloud definitions: " ++ e.message), w)
  | .ok clouds => perform (work (c.surroundings dirs settings clouds w)) command cluster w

def dispatch (c : Console ω) (dirs : Directories) (settings : Settings) (command : Command)
    (w : ω) : Outcome × ω :=
  match command with
  | .configure cluster implementation force =>
    c.withDocuments dirs settings command cluster
      (fun s documents => s.configure cluster documents implementation force) w
  | .all cluster implementation force =>
    c.withDocuments dirs settings command cluster
      (fun s documents => s.all cluster documents implementation force) w
  | .allocate cluster force =>
    c.withClouds dirs settings command cluster
      (fun s => ClusterDescriptor.summary <$> s.allocate cluster force) w
  | .make cluster =>
    c.withClouds dirs settings command cluster
      (fun s => (fun _ => [s!"cluster '{cluster}' is prepared"]) <$> s.make cluster) w
  | .install cluster =>
    c.withClouds dirs settings command cluster
      (fun s => ClusterDescriptor.summary <$> s.install cluster) w
  | .clean cluster =>
    c.withClouds dirs settings command cluster
      (fun s => (fun _ => [s!"cluster '{cluster}' has been removed"]) <$> s.clean cluster) w
  | .start cluster =>
    c.withClouds dirs settings command cluster
      (fun s => ClusterDescriptor.summary <$> s.start cluster) w
  | .stop cluster =>
    c.withClouds dirs settings command cluster
      (fun s => ClusterDescriptor.summary <$> s.stop cluster) w
  | .status cluster => (showStatus dirs (c.files w) cluster, w)

/-- One run with arguments that have been read. -/
def execute (c : Console ω) (a : Arguments) (w : ω) : Outcome × ω :=
  let dirs := c.directories a w
  match a.command with
  | .status cluster => (showStatus dirs (c.files w) cluster, w)
  | command =>
    match Settings.load (c.files w) dirs.config with
    | .error e => (.ofFailure ("Could not load settings: " ++ e.message), w)
    | .ok settings => c.dispatch dirs settings command w

end Console

end BenchCluster.CommandLine
