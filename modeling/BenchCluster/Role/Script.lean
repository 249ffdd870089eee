import BenchCluster.Role.Basic

/-! # Roles made of scripts

The built-in roles run the scripts among their parameters. A backend is what clients connect to, a
proxy stands in front of it, and nothing connects to a driver.
-/

namespace BenchCluster

/-- The kinds of built-in roles. -/
inductive ScriptKind
  | backend
  | proxy
  | driver
  deriving DecidableEq, Repr

def ScriptKind.key : ScriptKind → String
  | .backend => "backend"
  | .proxy => "proxy"
  | .driver => "driver"

/-- A built-in role. -/
structure ScriptRole where
  kind : ScriptKind
  context : RoleContext
  deriving Repr

namespace ScriptRole

inductive Step
  | configure
  | install
  | postInstall
  | clean
  | start
  | stop
  deriving DecidableEq, Repr

/-- The name of a step, which is also that of the parameter that holds its script. -/
def Step.name : Step → String
  | .configure => "configure"
  | .install => "install"
  | .postInstall => "post_install"
  | .clean => "clean"
  | .start => "start"
  | .stop => "stop"

def name (r : ScriptRole) : String := r.context.params.role

def parameter (r : ScriptRole) (key : String) : Option String := r.context.params.parameter key

def port (r : ScriptRole) (key : String) : Except RoleError (Option UInt16) :=
  match r.parameter key with
  | none => .ok none
  | some value =>
    match Text.readNat UInt16.size value with
    | .ok n => .ok (some (UInt16.ofNat n))
    | .error _ => .error (.invalidParameter r.name key value)

/-- Makes a role, which must have members and valid ports. -/
def make (kind : ScriptKind) (context : RoleContext) : Except RoleError ScriptRole := do
  if context.group.hosts.isEmpty then throw (.noMembers context.params.role)
  let r : ScriptRole := ⟨kind, context⟩
  let _ ← r.port "port"
  let _ ← r.port "listen_port"
  return r

/-- The dialect of backends that name none. -/
def standardDialect : String := "postgresql"

def sslMaterial (r : ScriptRole) : Option SslMaterial :=
  let ssl : SslMaterial :=
    { ca := r.parameter "ssl_ca", cert := r.parameter "ssl_cert", key := r.parameter "ssl_key" }
  if ssl = {} then none else some ssl

/-- The target of a backend, which is its first member. -/
def backendTarget (r : ScriptRole) : Except RoleError ConnectionTarget := do
  return {
    hosts := r.context.group.addresses.take 1
    user := r.parameter "db_user"
    password := r.parameter "db_password"
    database := r.parameter "database"
    port := ← r.port "port"
    dialect := (r.parameter "dialect").getD standardDialect
    ssl := r.sslMaterial }

def targetValues (t : ConnectionTarget) : List (String × String) :=
  [("target_hosts", ",".intercalate t.hosts),
    ("target_port", match t.port with | some port => toString port.toNat | none => ""),
    ("target_user", t.user.getD ""), ("target_database", t.database.getD ""),
    ("target_dialect", t.dialect)]

/-- The target that clients use when the proxy stands in front of another one. -/
def proxyTarget (r : ScriptRole) (t : ConnectionTarget) : Except RoleError ConnectionTarget := do
  let listenPort ← r.port "listen_port"
  return { t with hosts := r.context.group.addresses, port := listenPort <|> t.port }

variable {ω : Type}

/-- Runs the script of a step on every member. Errors do not count when cleaning up. -/
def runStep (r : ScriptRole) (x : RemoteExecutor ω) (step : Step) (script : Option String) :
    Action ω (Except RoleError Unit) := do
  match script with
  | none => return .ok ()
  | some text =>
    let options := r.context.group.options
    let options := if step = .clean then { options with ignoreErrors := true } else options
    let reply ← x.run options r.context.group.hosts (.template text)
    match reply.result with
    | .ok _ => return .ok ()
    | .error e => return .error (.remote r.name step.name e)

def runParameter (r : ScriptRole) (x : RemoteExecutor ω) (step : Step) :
    Action ω (Except RoleError Unit) :=
  r.runStep x step (r.parameter step.name)

/-- Installs the role; a backend answers with its target. -/
def install (r : ScriptRole) (x : RemoteExecutor ω) :
    Action ω (Except RoleError (Option ConnectionTarget)) := do
  match ← r.runParameter x .install with
  | .error e => return .error e
  | .ok () =>
    match r.kind with
    | .backend => return r.backendTarget.map some
    | _ => return .ok none

def postInstall (r : ScriptRole) (x : RemoteExecutor ω) (t : ConnectionTarget) :
    Action ω (Except RoleError ConnectionTarget) := do
  let script := (r.parameter Step.postInstall.name).map (Text.fill (targetValues t))
  match ← r.runStep x .postInstall script with
  | .error e => return .error e
  | .ok () => return r.proxyTarget t

def toRole (r : ScriptRole) (x : RemoteExecutor ω) : Role ω :=
  { name := r.name
    configure := r.runParameter x .configure
    install := r.install x
    clean := r.runParameter x .clean
    start := r.runParameter x .start
    stop := r.runParameter x .stop
    proxy := if r.kind = .proxy then some (r.postInstall x) else none }

def constructor (x : RemoteExecutor ω) (kind : ScriptKind) : RoleConstructor ω := fun context =>
  (make kind context).map fun r => r.toRole x

end ScriptRole

def RoleRegistry.builtin {ω : Type} (x : RemoteExecutor ω) : RoleRegistry ω :=
  Dict.ofList ([ScriptKind.backend, .proxy, .driver].map fun kind =>
    (kind.key, ScriptRole.constructor x kind))

end BenchCluster
