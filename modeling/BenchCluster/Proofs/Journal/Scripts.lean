import BenchCluster.Proofs.Cluster.Target
import BenchCluster.Proofs.Journal.Upbringing

/-! # What built-in roles answer

Built-in roles over the members of a complete cluster answer what can be told from its descriptor:
backends their targets, and proxies those that clients should use instead.
-/

namespace BenchCluster

variable {ω : Type} {s : Surroundings ω} {d : ClusterDescriptor} {ex : RemoteExecutor ω}

/-- The built-in roles are registered under their names. -/
def Surroundings.HasBuiltin (s : Surroundings ω) (ex : RemoteExecutor ω) : Prop :=
  ∀ kind : ScriptKind, Dict.find? s.roles kind.key = some (ScriptRole.constructor ex kind)

theorem RoleRegistry.find?_builtin (ex : RemoteExecutor ω) (kind : ScriptKind) :
    Dict.find? (RoleRegistry.builtin ex) kind.key = some (ScriptRole.constructor ex kind) := by
  rw [RoleRegistry.builtin, Dict.find?_ofList]
  cases kind <;> rfl

theorem RoleRegistry.exists_kind {ex : RemoteExecutor ω} {name : String}
    {make : RoleConstructor ω} (h : Dict.find? (RoleRegistry.builtin ex) name = some make) :
    ∃ kind : ScriptKind, name = kind.key := by
  rw [RoleRegistry.builtin, Dict.find?_ofList] at h
  obtain ⟨e, he, -⟩ := Option.map_eq_some_iff.1 h
  have hname : e.1 = name := by simpa using List.find?_some he
  obtain ⟨kind, -, rfl⟩ := List.mem_map.1 (List.mem_reverse.1 (List.mem_of_find?_eq_some he))
  exact ⟨kind, hname.symm⟩

/-! ## Roles that have been made -/

namespace ScriptRole

variable {kind : ScriptKind} {context : RoleContext} {r : ScriptRole}

theorem port_eq_ok {key : String} {port : Option UInt16} (h : r.port key = .ok port) :
    port = r.context.params.port? key := by
  rw [ScriptRole.port, parameter] at h
  rw [ComponentParams.port?]
  cases hvalue : r.context.params.parameter key with
  | none =>
    rw [hvalue] at h
    cases h
    rfl
  | some value =>
    simp only [hvalue] at h
    rw [Option.bind_some]
    cases hread : Text.readNat UInt16.size value with
    | error e =>
      rw [hread] at h
      cases h
    | ok n =>
      rw [hread] at h
      cases h
      rfl

theorem make_eq_ok (h : make kind context = .ok r) :
    r = ⟨kind, context⟩ ∧ context.group.hosts ≠ [] := by
  rw [make] at h
  by_cases hempty : context.group.hosts.isEmpty
  · rw [if_pos hempty] at h
    cases h
  · rw [if_neg hempty] at h
    obtain ⟨port, -, h⟩ := Fallible.bind_eq_ok.1 h
    obtain ⟨listenPort, -, h⟩ := Fallible.bind_eq_ok.1 h
    cases h
    exact ⟨rfl, by simpa using hempty⟩

theorem backendTarget_eq_ok {own : ConnectionTarget} (h : r.backendTarget = .ok own) :
    own = r.context.params.target (r.context.group.addresses.take 1) := by
  obtain ⟨port, hport, h⟩ := Fallible.bind_eq_ok.1 h
  obtain rfl := port_eq_ok hport
  exact (Except.ok.inj h).symm

theorem proxyTarget_eq_ok {own chained : ConnectionTarget} (h : r.proxyTarget own = .ok chained) :
    chained = { own with
      hosts := r.context.group.addresses
      port := r.context.params.port? "listen_port" <|> own.port } := by
  obtain ⟨port, hport, h⟩ := Fallible.bind_eq_ok.1 h
  obtain rfl := port_eq_ok hport
  exact (Except.ok.inj h).symm

theorem install_answer (r : ScriptRole) (ex : RemoteExecutor ω) (inv : Invocation ω) :
    (r.install ex inv).1 = (r.runParameter ex .install inv).1 >>= fun _ =>
      if r.kind = .backend then r.backendTarget.map some else .ok none := by
  obtain ⟨kind, context⟩ := r
  simp only [install, bind, StateT.bind]
  rcases runParameter ⟨kind, context⟩ ex .install inv with ⟨_ | _, after⟩
  · rfl
  · cases kind <;> rfl

theorem postInstall_answer (r : ScriptRole) (ex : RemoteExecutor ω) (target : ConnectionTarget)
    (inv : Invocation ω) :
    (r.postInstall ex target inv).1 =
      (r.runStep ex .postInstall
        ((r.parameter Step.postInstall.name).map (Text.fill (targetValues target))) inv).1
        >>= fun _ => r.proxyTarget target := by
  simp only [postInstall, bind, StateT.bind]
  generalize (r.parameter Step.postInstall.name).map (Text.fill (targetValues target)) = script
  rcases runStep r ex .postInstall script inv with ⟨_ | _, after⟩ <;> rfl

end ScriptRole

/-! ## Roles that have been built for a descriptor -/

/-- If all machines of a complete cluster have addresses, these are the addresses of the
instances. -/
theorem mapM_addressOf?_of_hostsOf {defaultPort : UInt16} {names : List String} {hosts : List Host}
    (hmembers : ∀ name ∈ names, ∃ m, d.members.find? name = some m)
    (h : hostsOf defaultPort (names.filterMap d.members.find?) = .ok hosts) :
    names.mapM d.addressOf? = some (hosts.map Host.address) := by
  rw [Fallible.mapM_eq_some]
  rw [hostsOf, Fallible.mapM_eq_ok] at h
  induction names generalizing hosts with
  | nil =>
    cases h
    rfl
  | cons name rest ih =>
    obtain ⟨m, hm⟩ := hmembers name List.mem_cons_self
    rw [List.filterMap_cons_some hm] at h
    cases h with
    | @cons _ host _ others hhost hothers =>
      rw [List.map_cons, ih (fun n hn => hmembers n (List.mem_cons_of_mem _ hn)) hothers]
      cases hof : Host.ofMachine? defaultPort m with
      | none =>
        rw [hof] at hhost
        cases hhost
      | some h' =>
        rw [hof] at hhost
        obtain rfl := Except.ok.inj hhost
        rw [ClusterDescriptor.addressOf?, hm, Option.bind_some,
          Host.hostAddress?_of_ofMachine? hof]
        rfl

namespace Surroundings.Builds

variable {x : BuiltRole ω} {kind : ScriptKind}

theorem mapM_addressOf? (hx : s.Builds d x)
    (hmembers : ∀ name ∈ d.instancesOf x.name, ∃ m, d.members.find? name = some m) :
    (d.instancesOf x.name).mapM d.addressOf? = some x.context.group.addresses :=
  mapM_addressOf?_of_hostsOf hmembers hx.hosts

theorem scripted (hx : s.Builds d x) (hbuiltin : s.HasBuiltin ex)
    (hkind : d.runsAs kind x.name = true) :
    x.role = (ScriptRole.mk kind x.context).toRole ex ∧ x.context.group.hosts ≠ [] := by
  have hbuild := hx.build
  rw [RoleRegistry.build, (ClusterDescriptor.runsAs_iff hx.component).1 hkind, hbuiltin kind]
    at hbuild
  obtain ⟨r, hr, hrole⟩ := Fallible.map_eq_ok.1 hbuild
  obtain ⟨rfl, hhosts⟩ := ScriptRole.make_eq_ok hr
  exact ⟨hrole.symm, hhosts⟩

/-- A backend answers its installation with its target, other roles answer with none. -/
theorem install_answer (hx : s.Builds d x) (hbuiltin : s.HasBuiltin ex)
    (hmembers : ∀ name ∈ d.instancesOf x.name, ∃ m, d.members.find? name = some m)
    (hkind : d.runsAs kind x.name = true) {target : Option ConnectionTarget} {inv : Invocation ω}
    (h : (x.role.install inv).1 = .ok target) :
    if kind = .backend then ∃ own, d.backendTarget? x.name = some own ∧ target = some own
    else target = none := by
  obtain ⟨hrole, hhosts⟩ := hx.scripted hbuiltin hkind
  rw [hrole] at h
  change ((ScriptRole.mk kind x.context).install ex inv).1 = _ at h
  rw [ScriptRole.install_answer] at h
  obtain ⟨-, -, h⟩ := Fallible.bind_eq_ok.1 h
  by_cases hbackend : kind = .backend
  · rw [if_pos hbackend] at h ⊢
    obtain ⟨own, hown, rfl⟩ := Fallible.map_eq_ok.1 h
    obtain rfl := ScriptRole.backendTarget_eq_ok hown
    obtain ⟨host, others, hgroup⟩ := List.exists_cons_of_ne_nil hhosts
    have haddresses := Fallible.mapM_eq_some.1 (hx.mapM_addressOf? hmembers)
    rw [HostGroup.addresses, hgroup, List.map_cons, List.map_cons] at haddresses
    obtain ⟨first, rest, hinstances, hfirst, -⟩ := List.map_eq_cons_iff.1 haddresses
    refine ⟨_, ?_, rfl⟩
    rw [ClusterDescriptor.backendTarget?, hx.component, hinstances, HostGroup.addresses, hgroup]
    simp only [Option.bind_eq_bind, Option.bind_some, List.head?_cons, hfirst]
    rfl
  · rw [if_neg hbackend] at h ⊢
    exact (Except.ok.inj h).symm

theorem proxy_isSome_iff (hx : s.Builds d x) (hbuiltin : s.HasBuiltin ex)
    (hkind : d.runsAs kind x.name = true) : x.role.proxy.isSome = true ↔ kind = .proxy := by
  obtain ⟨hrole, -⟩ := hx.scripted hbuiltin hkind
  rw [hrole]
  cases kind <;> simp [ScriptRole.toRole]

/-- A proxy that is led to a target answers with the one that clients should use instead. -/
theorem lead_answer (hx : s.Builds d x) (hbuiltin : s.HasBuiltin ex)
    (hmembers : ∀ name ∈ d.instancesOf x.name, ∃ m, d.members.find? name = some m)
    (hkind : d.runsAs .proxy x.name = true) {own chained : ConnectionTarget}
    {lead : ConnectionTarget → Action ω (Except RoleError ConnectionTarget)} {inv : Invocation ω}
    (hlead : x.role.proxy = some lead) (h : (lead own inv).1 = .ok chained) :
    d.proxyTarget? x.name own = some chained := by
  obtain ⟨hrole, -⟩ := hx.scripted hbuiltin hkind
  rw [hrole] at hlead
  cases hlead
  rw [ScriptRole.postInstall_answer] at h
  obtain ⟨-, -, h⟩ := Fallible.bind_eq_ok.1 h
  rw [ScriptRole.proxyTarget_eq_ok h, ClusterDescriptor.proxyTarget?, hx.component]
  simp only [Option.bind_eq_bind, Option.bind_some, hx.mapM_addressOf? hmembers]
  rfl

end Surroundings.Builds

end BenchCluster
