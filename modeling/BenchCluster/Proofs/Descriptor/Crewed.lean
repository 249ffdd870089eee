import BenchCluster.Proofs.Descriptor.Current
import BenchCluster.Proofs.Descriptor.ReadBack
import BenchCluster.Proofs.Descriptor.Vetted

/-! # Roles over all their instances

A role is built over the members among its instances, and one that is missing would be passed over.
In the states in which roles are built none is missing, whatever has happened before. Every role
gets one host for each of its instances, in their order, and these are its replicas in the order of
their numbers unless its name has a comma.
-/

namespace BenchCluster

variable {ω : Type} {d : ClusterDescriptor} {role : String}

/-! ## Hosts of instances -/

/-- The host of an instance, if it has a member with a usable address. -/
def ClusterDescriptor.hostOf? (d : ClusterDescriptor) (defaultPort : UInt16) (name : String) :
    Option Host :=
  (d.members.find? name).bind (Host.ofMachine? defaultPort)

theorem Host.name_of_ofMachine? {defaultPort : UInt16} {m : Machine} {h : Host}
    (hhost : Host.ofMachine? defaultPort m = some h) : h.name = m.name := by
  rw [Host.ofMachine?] at hhost
  split at hhost
  · cases hhost
  split at hhost
  · cases hhost
  · cases hhost
    rfl

theorem hostsOf_cases (defaultPort : UInt16) (machines : List Machine) :
    (∃ m ∈ machines, Host.ofMachine? defaultPort m = none ∧
        hostsOf defaultPort machines = .error (.noAddress m.name)) ∨
      ∃ hosts, machines.map (Host.ofMachine? defaultPort) = hosts.map some ∧
        hostsOf defaultPort machines = .ok hosts := by
  cases hresult : hostsOf defaultPort machines with
  | error e =>
    obtain ⟨m, hm, hfailed⟩ := Fallible.exists_of_mapM_eq_error hresult
    cases hhost : Host.ofMachine? defaultPort m with
    | none =>
      rw [hhost] at hfailed
      cases hfailed
      exact .inl ⟨m, hm, hhost, rfl⟩
    | some host =>
      rw [hhost] at hfailed
      cases hfailed
  | ok hosts =>
    refine .inr ⟨hosts, ?_, rfl⟩
    rw [hostsOf, Fallible.mapM_eq_ok] at hresult
    induction hresult with
    | nil => rfl
    | @cons m host _ _ hhost _ ih =>
      rw [List.map_cons, List.map_cons, ih]
      cases hof : Host.ofMachine? defaultPort m with
      | none =>
        rw [hof] at hhost
        cases hhost
      | some h =>
        rw [hof] at hhost
        rw [Except.ok.inj hhost]

theorem map_some_filterMap_members {names : List String}
    (h : ∀ name ∈ names, ∃ m, d.members.find? name = some m) :
    (names.filterMap d.members.find?).map some = names.map d.members.find? := by
  rw [List.map_filterMap_some_eq_filter_map_isSome, List.filter_eq_self]
  intro found hfound
  obtain ⟨name, hname, rfl⟩ := List.mem_map.1 hfound
  obtain ⟨m, hm⟩ := h name hname
  rw [hm]
  rfl

namespace Surroundings

/-- What a role of a descriptor is built from: its parameters, and one host for each of its
instances. -/
structure Crews (s : Surroundings ω) (d : ClusterDescriptor) (role : String)
    (context : RoleContext) : Prop where
  cluster : context.cluster = d.clusterName
  component : d.component? role = some (context.environment, context.params)
  hosts : (d.instancesOf role).map (d.hostOf? s.defaultPort) = context.group.hosts.map some
  options : context.group.options =
    s.execOptions (context.params.parameter "sudo" ≠ some noSudo)

def buildOver (s : Surroundings ω) (context : RoleContext) :
    Except OrchestratorError (RoleEntry ω) :=
  ((s.roles.build context).mapError .role).map
    (RoleEntry.mk context.params.role context.environment.name)

variable {s : Surroundings ω} {context : RoleContext}

theorem buildOver_eq_error {e : OrchestratorError} (h : s.buildOver context = .error e) :
    ∃ reason, s.roles.build context = .error reason ∧ e = .role reason := by
  rw [buildOver] at h
  cases hbuild : s.roles.build context with
  | error reason =>
    rw [hbuild] at h
    cases h
    exact ⟨reason, rfl, rfl⟩
  | ok r =>
    rw [hbuild] at h
    cases h

/-- A role all of whose instances have members is built over one host for each of them, unless one
has no usable address. -/
theorem buildRole_cases (s : Surroundings ω) (hd : d.Numbered) (hrole : role ∈ d.topology.roles)
    (hmembers : ∀ name ∈ d.instancesOf role, ∃ m, d.members.find? name = some m) :
    (∃ name m, d.members.find? name = some m ∧ Host.ofMachine? s.defaultPort m = none ∧
        s.buildRole d role (d.instancesOf role) = .error (.noAddress m.name)) ∨
      ∃ context, s.Crews d role context ∧
        s.buildRole d role (d.instancesOf role) = s.buildOver context := by
  obtain ⟨env, params, hcomponent, -⟩ := hd.components role hrole
  simp only [buildRole, hcomponent]
  rcases hostsOf_cases s.defaultPort ((d.instancesOf role).filterMap d.members.find?) with
    ⟨m, hm, hnone, herror⟩ | ⟨hosts, hmap, hhosts⟩
  · obtain ⟨name, -, hname⟩ := List.mem_filterMap.1 hm
    rw [herror]
    exact .inl ⟨name, m, hname, hnone, rfl⟩
  · let context : RoleContext :=
      { cluster := d.clusterName, environment := env, params := params
        group := ⟨hosts, s.execOptions (params.parameter "sudo" ≠ some noSudo)⟩ }
    refine .inr ⟨context, ⟨rfl, hcomponent, ?_, rfl⟩, ?_⟩
    · rw [← hmap]
      have hsome := congrArg (List.map fun m => m.bind (Host.ofMachine? s.defaultPort))
        (map_some_filterMap_members hmembers)
      rw [List.map_map, List.map_map] at hsome
      exact hsome.symm
    · rw [hhosts, buildOver, hd.role role env params hcomponent]
      rfl

/-- The roles are those of the topology in level order, each built over its instances. -/
theorem rolesOf_eq (s : Surroundings ω) (hd : d.Numbered) : ∃ tree, s.rolesOf d =
    (d.topology.rolesInOrder.mapM fun role => s.buildRole d role (d.instancesOf role)).map
      (Prod.mk tree) := by
  have htree := hd.restore_eq
  refine ⟨TopologyTree.named d.topology d.topologyMap, ?_⟩
  rw [rolesOf, htree]
  change (s.buildRoles d _ >>= fun roles => Except.ok (_, roles)) = _
  rw [buildRoles, ClusterDescriptor.groups_restore hd.expanded htree, List.mapM_map]
  change (d.topology.rolesInOrder.mapM (fun role => s.buildRole d role (d.instancesOf role)) >>=
    fun roles => Except.ok (_, roles)) = _
  generalize d.topology.rolesInOrder.mapM
    (fun role => s.buildRole d role (d.instancesOf role)) = built
  cases built <;> rfl

theorem Crews.hosts_ne_nil (h : s.Crews d role context) (hd : d.Numbered)
    (hrole : role ∈ d.topology.roles) : context.group.hosts ≠ [] := by
  intro hempty
  have hnames := h.hosts
  rw [hempty, List.map_nil, List.map_eq_nil_iff, hd.instancesOf_eq_flatMap hrole,
    List.flatMap_eq_nil_iff] at hnames
  have hread := hnames 0 (List.mem_range.2 (hd.replicas_spec hrole).1)
  have hlength := length_namesRead role 0
  rw [hread] at hlength
  cases hlength

theorem Crews.names (h : s.Crews d role context) (hd : d.Keyed) :
    context.group.hosts.map Host.name = d.instancesOf role := by
  have hhosts := h.hosts
  generalize d.instancesOf role = names at hhosts ⊢
  generalize context.group.hosts = hosts at hhosts ⊢
  induction names generalizing hosts with
  | nil =>
    rw [List.map_nil, eq_comm, List.map_eq_nil_iff] at hhosts
    rw [hhosts, List.map_nil]
  | cons name rest ih =>
    obtain ⟨host, others, rfl, hhost, hothers⟩ := List.map_eq_cons_iff.1 hhosts.symm
    obtain ⟨m, hm, hof⟩ := Option.bind_eq_some_iff.1 hhost.symm
    rw [List.map_cons, ih _ hothers.symm, Host.name_of_ofMachine? hof, hd name m hm]

theorem rolesOf_eq_of_hosts (s : Surroundings ω) (hd : d.Numbered)
    (hmembers : ∀ role, ∀ name ∈ d.instancesOf role, ∃ m, d.members.find? name = some m)
    (hhosts : ∀ key m, d.members.find? key = some m →
      (Host.ofMachine? s.defaultPort m).isSome = true) :
    ∃ tree contexts, List.Forall₂ (s.Crews d) d.topology.rolesInOrder contexts ∧
      s.rolesOf d = (contexts.mapM s.buildOver).map (Prod.mk tree) := by
  obtain ⟨tree, htree⟩ := s.rolesOf_eq hd
  have hroles : ∀ role ∈ d.topology.rolesInOrder, role ∈ d.topology.roles :=
    fun role hrole => d.topology.mem_rolesInOrder.1 hrole
  suffices h : ∃ contexts, List.Forall₂ (s.Crews d) d.topology.rolesInOrder contexts ∧
      (d.topology.rolesInOrder.mapM fun role => s.buildRole d role (d.instancesOf role)) =
        contexts.mapM s.buildOver by
    obtain ⟨contexts, hcrews, hbuild⟩ := h
    exact ⟨tree, contexts, hcrews, by rw [htree, hbuild]⟩
  clear htree
  generalize d.topology.rolesInOrder = roles at hroles ⊢
  induction roles with
  | nil => exact ⟨[], .nil, rfl⟩
  | cons role rest ih =>
    obtain ⟨hrole, hrest⟩ := List.forall_mem_cons.1 hroles
    obtain ⟨contexts, hcrews, hbuild⟩ := ih hrest
    rcases s.buildRole_cases hd hrole (hmembers role) with
      ⟨name, m, hm, hnone, -⟩ | ⟨context, hcontext, hbuilt⟩
    · have hsome := hhosts name m hm
      rw [hnone] at hsome
      cases hsome
    · exact ⟨context :: contexts, .cons hcontext hcrews, by
        rw [List.mapM_cons, List.mapM_cons, hbuilt, hbuild]⟩

/-- If roles cannot be built, a member has no usable address, or a role is refused for what it is
built from. -/
theorem rolesOf_error_cases (hd : d.Numbered)
    (hmembers : ∀ role, ∀ name ∈ d.instancesOf role, ∃ m, d.members.find? name = some m)
    {e : OrchestratorError} (h : s.rolesOf d = .error e) :
    (∃ member, e = .noAddress member) ∨ ∃ role ∈ d.topology.roles, ∃ context reason,
      s.Crews d role context ∧ s.roles.build context = .error reason ∧ e = .role reason := by
  obtain ⟨tree, htree⟩ := s.rolesOf_eq hd
  rw [htree] at h
  obtain ⟨role, hmem, hrole⟩ :=
    Fallible.exists_of_mapM_eq_error ((Fallible.Alike.map _ _ e).1 h)
  have hrole' := d.topology.mem_rolesInOrder.1 hmem
  rcases s.buildRole_cases hd hrole' (hmembers role) with
    ⟨name, m, -, -, hbuild⟩ | ⟨context, hcontext, hbuild⟩
  · rw [hbuild] at hrole
    cases hrole
    exact .inl ⟨m.name, rfl⟩
  · rw [hbuild] at hrole
    obtain ⟨reason, hreason, he⟩ := buildOver_eq_error hrole
    exact .inr ⟨role, hrole', context, reason, hcontext, hreason, he⟩

end Surroundings

/-! ## Every run -/

/-- An operation builds the roles of a descriptor after calls of its own: those of the one that is
stored, and when it starts a cluster those of the one with the machines that have come up. -/
inductive Books.Equips (b : Books) (cluster : String) :
    List JournalEntry → ClusterDescriptor → Prop
  | installing {d : ClusterDescriptor} (loaded : b.Loaded cluster .install d) :
      Equips b cluster [] d
  | stopping {d : ClusterDescriptor} (loaded : b.Loaded cluster .stop d) : Equips b cluster [] d
  | starting {d : ClusterDescriptor} (loaded : b.Loaded cluster .start d) (x : Starting d) :
      Equips b cluster x.entries x.descriptor
  | cleaning {d : ClusterDescriptor} (loaded : b.Loaded cluster .clean d)
      (installed : d.mayHaveRoles = true) : Equips b cluster [] d

namespace Books.Equips

variable {b : Books} {cluster : String} {calls : List JournalEntry}

theorem numbered (h : b.Equips cluster calls d) (hb : b.Every fun _ d => d.Numbered) :
    d.Numbered := by
  cases h with
  | installing loaded => exact hb _ _ loaded.stored
  | stopping loaded => exact hb _ _ loaded.stored
  | starting loaded x =>
    have hsame : ClusterDescriptor.SamePlan _ x.descriptor := rfl
    exact hsame.numbered (hb _ _ loaded.stored)
  | cleaning loaded installed => exact hb _ _ loaded.stored

theorem exists_member (h : b.Equips cluster calls d) (hb : b.Every fun _ d => d.Complete)
    (role name : String) (hname : name ∈ d.instancesOf role) :
    ∃ m, d.members.find? name = some m := by
  cases h with
  | installing loaded =>
    exact (hb _ _ loaded.stored).exists_member
      (.inl (ClusterState.allows_install_iff.1 loaded.allowed)) hname
  | stopping loaded =>
    exact (hb _ _ loaded.stored).exists_member
      (.inr (.inl (ClusterState.allows_stop_iff.1 loaded.allowed))) hname
  | starting loaded x =>
    have hdown := ClusterState.allows_start_iff.1 loaded.allowed
    have hcomplete : x.descriptor.Complete := fun _ =>
      x.missingInstances_eq_nil (hb _ _ loaded.stored (.inr (.inr hdown)))
    exact hcomplete.exists_member (.inr (.inr hdown)) hname
  | cleaning loaded installed =>
    refine (hb _ _ loaded.stored).exists_member ?_ hname
    simpa [ClusterDescriptor.mayHaveRoles, or_assoc] using installed

theorem keyed (h : b.Equips cluster calls d) (hb : b.Every fun _ d => d.Keyed)
    (hcalls : ∀ x ∈ calls, x.call.keepsName = true) : d.Keyed := by
  cases h with
  | installing loaded => exact hb _ _ loaded.stored
  | stopping loaded => exact hb _ _ loaded.stored
  | starting loaded x => exact x.keyed (hb _ _ loaded.stored) hcalls
  | cleaning loaded installed => exact hb _ _ loaded.stored

end Books.Equips

/-- Whatever has happened before, the roles of an installed cluster are built over all their
instances. Nothing is missing in the topology, and no role is without members. If all members have
usable addresses, every role gets one host for each of its instances, in their order, and is used at
the first of them. These are its replicas in the order of their numbers if its name has no comma, and
only then. -/
theorem roles_built_over_instances (turns : List Turn) {cluster : String}
    {calls : List JournalEntry} {d : ClusterDescriptor}
    (hd : (Books.afterVentures turns).Equips cluster calls d) (s : Surroundings ω) :
    (∀ e, s.rolesOf d = .error e → (∃ member, e = .noAddress member) ∨
      ∃ role ∈ d.topology.roles, ∃ context reason, s.Crews d role context ∧
        s.roles.build context = .error reason ∧ e = .role reason ∧
        ∀ ex, s.roles = RoleRegistry.builtin ex → context.params.Flaw reason) ∧
    ((∀ key m, d.members.find? key = some m →
        (Host.ofMachine? s.defaultPort m).isSome = true) →
      ∃ tree contexts, List.Forall₂ (s.Crews d) d.topology.rolesInOrder contexts ∧
        s.rolesOf d = (contexts.mapM s.buildOver).map (Prod.mk tree)) ∧
    ∀ role ∈ d.topology.roles, ∀ context, s.Crews d role context →
      (∃ first rest, context.group.hosts = first :: rest ∧
        (∀ (ex : RemoteExecutor ω) command, context.group.runOnOne ex command =
          ex.runOn context.group.options first command) ∧
        (∀ kind target, ScriptRole.backendTarget ⟨kind, context⟩ = .ok target →
          target.hosts = [first.address])) ∧
      (',' ∉ role.toList → context.group.hosts.map some =
        (List.range (d.replicas role)).map fun i =>
          d.hostOf? s.defaultPort (instanceName role i)) ∧
      ((∀ x ∈ (Books.afterVentures turns).journal ++ calls, x.call.keepsName = true) →
        (context.group.hosts.map Host.name =
          (List.range (d.replicas role)).map (instanceName role) ↔ ',' ∉ role.toList)) := by
  have hnumbered := hd.numbered (Books.numbered_afterVentures turns)
  have hmembers := hd.exists_member (Books.complete_afterVentures turns)
  refine ⟨fun e he => ?_, s.rolesOf_eq_of_hosts hnumbered hmembers, fun role hrole context hc => ?_⟩
  · rcases Surroundings.rolesOf_error_cases hnumbered hmembers he with
      haddress | ⟨role, hrole, context, reason, hc, hreason, he⟩
    · exact .inl haddress
    · refine .inr ⟨role, hrole, context, reason, hc, hreason, he, fun ex hex => ?_⟩
      rw [hex] at hreason
      -- A role with no members is ruled out, so its parameters are to blame.
      exact (RoleRegistry.build_builtin_eq_error hreason).resolve_left fun hnone =>
        hc.hosts_ne_nil hnumbered hrole hnone.1
  refine ⟨?_, fun hcomma => ?_, fun hnames => ?_⟩
  · obtain ⟨first, rest, hhosts⟩ := List.exists_cons_of_ne_nil (hc.hosts_ne_nil hnumbered hrole)
    refine ⟨first, rest, hhosts, fun ex command => ?_, fun kind target htarget => ?_⟩
    · rw [HostGroup.runOnOne, hhosts]
    · rw [ScriptRole.backendTarget_eq_ok htarget, ComponentParams.target, HostGroup.addresses,
        hhosts]
      rfl
  · rw [← hc.hosts, (hnumbered.instancesOf_eq_iff hrole).2 hcomma, List.map_map]
    rfl
  · rw [hc.names (hd.keyed (Books.keyed_afterVentures turns fun x hx =>
      hnames x (List.mem_append_left _ hx)) fun x hx => hnames x (List.mem_append_right _ hx)),
      hnumbered.instancesOf_eq_iff hrole]

def Sample.jointTurns : List Turn :=
  [.configure joint "standard" false, .allocate false].map fun request =>
    restless.turn { outside := 0 } "c" request

/-- The role is built over hosts that are not its two replicas. -/
theorem joint_role_built : ∃ d context,
    (Books.afterVentures Sample.jointTurns).find? "c" = some d ∧ d.state = .allocated ∧
      d.instancesOf "x,y" = ["x", "y_0", "x", "y_1"] ∧ d.replicas "x,y" = 2 ∧
      Sample.restless.Crews d "x,y" context ∧
      context.group.hosts.map Host.name ≠ (List.range 2).map (instanceName "x,y") := by
  have hplayed : (((Books.afterVentures Sample.jointTurns).find? "c").map fun d =>
        (d.state, d.instancesOf "x,y", d.replicas "x,y", d.topology.rolesInOrder,
          d.members.entries.all fun e =>
            (Host.ofMachine? Sample.restless.defaultPort e.2).isSome),
      (Books.afterVentures Sample.jointTurns).journal.all fun x => x.call.keepsName) =
      (some (.allocated, ["x", "y_0", "x", "y_1"], 2, ["x,y"], true), true) := by
    cbv
  simp only [Prod.mk.injEq, Option.map_eq_some_iff] at hplayed
  obtain ⟨⟨d, hd, hstate, hinstances, hreplicas, hroles, hhosts⟩, hnames⟩ := hplayed
  have hequips : (Books.afterVentures Sample.jointTurns).Equips "c" [] d :=
    .installing ⟨hd, ClusterState.allows_install_iff.2 hstate, by decide⟩
  obtain ⟨-, hbuilt, hrole⟩ := roles_built_over_instances _ hequips Sample.restless
  obtain ⟨-, contexts, hcrews, -⟩ := hbuilt fun key m hm =>
    List.all_eq_true.1 hhosts (key, m) (Dict.find?_eq_some_iff.1 hm)
  rw [hroles] at hcrews
  cases hcrews with
  | @cons _ context _ _ hcontext _ =>
    refine ⟨d, context, hd, hstate, hinstances, hreplicas, hcontext, fun hsame => ?_⟩
    have hmem : "x,y" ∈ d.topology.roles := d.topology.mem_rolesInOrder.1 (by simp [hroles])
    obtain ⟨-, -, hiff⟩ := hrole "x,y" hmem context hcontext
    rw [List.append_nil, hreplicas] at hiff
    exact (hiff (List.all_eq_true.1 hnames)).1 hsame (by decide)

end BenchCluster
