import BenchCluster.Host
import BenchCluster.Proofs.Topology.Groups
import BenchCluster.Role.Script

/-! # The front of a cluster

Where clients of a cluster with built-in roles connect, told from its topology, the parameters of
its roles and its members alone: to the last backend in level order, through the proxy directly
above it if there is one.
-/

namespace BenchCluster

def Machine.hostAddress? (m : Machine) : Option String :=
  m.address.bind fun text => (splitHostPort text).toOption.map Prod.fst

theorem Host.hostAddress?_of_ofMachine? {defaultPort : UInt16} {m : Machine} {h : Host}
    (hhost : Host.ofMachine? defaultPort m = some h) : m.hostAddress? = some h.address := by
  rw [Host.ofMachine?] at hhost
  rw [Machine.hostAddress?]
  cases haddress : m.address with
  | none =>
    rw [haddress] at hhost
    cases hhost
  | some text =>
    simp only [haddress] at hhost
    rw [Option.bind_some]
    cases hsplit : splitHostPort text with
    | error e =>
      rw [hsplit] at hhost
      cases hhost
    | ok parts =>
      rw [hsplit] at hhost
      cases hhost
      rfl

theorem ScriptKind.key_injective : Function.Injective ScriptKind.key := by
  intro kind kind' h
  cases kind <;> cases kind' <;> first | rfl | exact absurd h (by decide)

namespace ComponentParams

def port? (p : ComponentParams) (key : String) : Option UInt16 :=
  (p.parameter key).bind fun text => (Text.readNat UInt16.size text).toOption.map UInt16.ofNat

def sslMaterial? (p : ComponentParams) : Option SslMaterial :=
  let ssl : SslMaterial :=
    { ca := p.parameter "ssl_ca", cert := p.parameter "ssl_cert", key := p.parameter "ssl_key" }
  if ssl = {} then none else some ssl

def target (p : ComponentParams) (hosts : List String) : ConnectionTarget :=
  { hosts := hosts
    user := p.parameter "db_user"
    password := p.parameter "db_password"
    database := p.parameter "database"
    port := p.port? "port"
    dialect := (p.parameter "dialect").getD "postgresql"
    ssl := p.sslMaterial? }

end ComponentParams

namespace ClusterDescriptor

variable (d : ClusterDescriptor)

def runsAs (kind : ScriptKind) (role : String) : Bool :=
  (d.component? role).any fun (_, params) => params.implementation = kind.key

def addressOf? (name : String) : Option String := (d.members.find? name).bind Machine.hostAddress?

/-- How clients connect to a backend itself: to its first instance. -/
def backendTarget? (role : String) : Option ConnectionTarget := do
  let (_, params) ← d.component? role
  let first ← (d.instancesOf role).head?
  let address ← d.addressOf? first
  return params.target [address]

/-- How clients connect to a target through a proxy: to all of its instances. -/
def proxyTarget? (role : String) (target : ConnectionTarget) : Option ConnectionTarget := do
  let (_, params) ← d.component? role
  let hosts ← (d.instancesOf role).mapM d.addressOf?
  return { target with hosts := hosts, port := params.port? "listen_port" <|> target.port }

def proxyAbove? (role : String) : Option String :=
  (d.topology.roleAbove? role).filter (d.runsAs .proxy)

/-- How clients connect to a backend, through the proxy above it if there is one. -/
def front? (role : String) : Option ConnectionTarget :=
  (d.backendTarget? role).bind fun own =>
    match d.proxyAbove? role with
    | some proxy => d.proxyTarget? proxy own
    | none => some own

def backends : List String := d.topology.rolesInOrder.filter (d.runsAs .backend)

/-- How clients connect to the cluster: as to its last backend. -/
def chainedTarget? : Option ConnectionTarget :=
  match d.backends.getLast? with
  | some last => d.front? last
  | none => some .placeholder

/-- The proxy that has to be led to a backend's own target, with this target. -/
def lead? (role : String) : Option (String × Option ConnectionTarget) :=
  (d.proxyAbove? role).map fun proxy => (proxy, d.backendTarget? role)

variable {d} {h : String} {target : ConnectionTarget}

theorem runsAs_iff {kind : ScriptKind} {role : String} {env : Environment}
    {params : ComponentParams} (hcomponent : d.component? role = some (env, params)) :
    d.runsAs kind role = true ↔ params.implementation = kind.key := by
  simp [runsAs, hcomponent]

theorem kind_unique {kind kind' : ScriptKind} {role : String} (h : d.runsAs kind role = true)
    (h' : d.runsAs kind' role = true) : kind = kind' := by
  obtain ⟨⟨env, params⟩, hcomponent, -⟩ := (Option.any_eq_true _ _).1 h
  rw [runsAs_iff hcomponent] at h h'
  exact ScriptKind.key_injective (h.symm.trans h')

/-! ### Hosts of targets are members -/

/-- A member of the cluster is reached at a host. -/
def Reaches (d : ClusterDescriptor) (h : String) : Prop :=
  ∃ name m, d.members.find? name = some m ∧ m.hostAddress? = some h

theorem reaches_of_addressOf? {name : String} (hname : d.addressOf? name = some h) :
    d.Reaches h := by
  obtain ⟨m, hm, hhost⟩ := Option.bind_eq_some_iff.1 hname
  exact ⟨name, m, hm, hhost⟩

theorem reaches_of_proxyTarget? {role : String} {own : ConnectionTarget}
    (htarget : d.proxyTarget? role own = some target) (hh : h ∈ target.hosts) : d.Reaches h := by
  obtain ⟨⟨env, params⟩, -, htarget⟩ := Option.bind_eq_some_iff.1 htarget
  obtain ⟨hosts, hhosts, htarget⟩ := Option.bind_eq_some_iff.1 htarget
  cases htarget
  have hsome : some h ∈ (d.instancesOf role).map d.addressOf? := by
    rw [Fallible.mapM_eq_some.1 hhosts]
    exact List.mem_map_of_mem hh
  obtain ⟨name, -, hname⟩ := List.mem_map.1 hsome
  exact reaches_of_addressOf? hname

theorem reaches_of_backendTarget? {role : String}
    (htarget : d.backendTarget? role = some target) (hh : h ∈ target.hosts) : d.Reaches h := by
  obtain ⟨⟨env, params⟩, -, htarget⟩ := Option.bind_eq_some_iff.1 htarget
  obtain ⟨first, -, htarget⟩ := Option.bind_eq_some_iff.1 htarget
  obtain ⟨address, haddress, htarget⟩ := Option.bind_eq_some_iff.1 htarget
  cases htarget
  rw [List.mem_singleton.1 hh]
  exact reaches_of_addressOf? haddress

/-- Clients only connect to members of the cluster. -/
theorem reaches_of_chainedTarget? (htarget : d.chainedTarget? = some target)
    (hh : h ∈ target.hosts) : d.Reaches h := by
  rw [chainedTarget?] at htarget
  split at htarget
  · rename_i last _
    obtain ⟨own, hown, hfront⟩ := Option.bind_eq_some_iff.1 htarget
    split at hfront
    · exact reaches_of_proxyTarget? hfront hh
    · cases hfront
      exact reaches_of_backendTarget? hown hh
  · cases htarget
    cases hh

end ClusterDescriptor

end BenchCluster
