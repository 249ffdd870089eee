import BenchCluster.Proofs.Dict
import BenchCluster.Proofs.Fallible
import BenchCluster.Proofs.Journal.Entering

/-! # What operations find in booked surroundings

The store answers what the books say, the clients of clouds are those of the surroundings with
their calls entered, and so are the roles.
-/

namespace BenchCluster

variable {ω : Type}

namespace Books

/-- Every stored descriptor has a property, as the descriptor of its cluster. -/
def Every (b : Books) (P : String → ClusterDescriptor → Prop) : Prop :=
  ∀ cluster d, b.find? cluster = some d → P cluster d

theorem every_blank (P : String → ClusterDescriptor → Prop) : blank.Every P := by
  intro cluster d hd
  cases hd

theorem Every.put {b : Books} {P : String → ClusterDescriptor → Prop} (h : b.Every P) (late : Bool)
    {d : ClusterDescriptor} (hd : P d.clusterName d) : (b.put late d).Every P := by
  intro cluster e he
  rw [find?_put] at he
  by_cases hc : d.clusterName = cluster
  · rw [if_pos hc, Option.some.injEq] at he
    rwa [← he, ← hc]
  · rw [if_neg hc] at he
    exact h cluster e he

theorem Every.drop {b : Books} {P : String → ClusterDescriptor → Prop} (h : b.Every P) (late : Bool)
    (cluster : String) : (b.drop late cluster).Every P := by
  intro other e he
  rw [find?_drop] at he
  by_cases hc : cluster = other
  · rw [if_pos hc] at he
    cases he
  · rw [if_neg hc] at he
    exact h other e he

/-- Every descriptor is stored under its own name, which is a valid one. -/
def Named (b : Books) : Prop :=
  b.Every fun cluster d => d.clusterName = cluster ∧ isValidClusterName cluster = true

end Books

namespace Surroundings

variable {s : Surroundings ω}

/-! ## The store -/

theorem load_cases (cluster : String) (inv : Invocation (Booked ω)) :
    (∃ e, (s.booked.load cluster).outcome inv = (.error e, inv)) ∨
      ∃ d, inv.books.find? cluster = some d ∧ isValidClusterName cluster = true ∧
        (s.booked.load cluster).outcome inv = (.ok d, inv) := by
  have houtcome : (s.booked.load cluster).outcome inv =
      ((s.bookStore.load cluster inv.outside).1.mapError .store, inv) := rfl
  rw [houtcome]
  cases hv : isValidClusterName cluster with
  | false =>
    left
    exists .store (.invalidName cluster)
    simp [bookStore, hv, Except.mapError]
  | true =>
    cases hd : inv.books.find? cluster with
    | none =>
      left
      exists .store (.notFound cluster)
      simp [bookStore, hv, hd, Except.mapError]
    | some d => exact .inr ⟨d, rfl, rfl, by simp [bookStore, hv, hd, Except.mapError]⟩

theorem load_of_find? {cluster : String} {inv : Invocation (Booked ω)} {d : ClusterDescriptor}
    (hv : isValidClusterName cluster = true) (hd : inv.books.find? cluster = some d) :
    (s.booked.load cluster).outcome inv = (.ok d, inv) := by
  have houtcome : (s.booked.load cluster).outcome inv =
      ((s.bookStore.load cluster inv.outside).1.mapError .store, inv) := rfl
  rw [houtcome]
  simp [bookStore, hv, hd, Except.mapError]

/-- A descriptor is loaded for an operation only if its state allows it and the user has not asked
to stop; nothing changes. -/
theorem loadFor_cases (cluster : String) (operation : Operation) (inv : Invocation (Booked ω)) :
    (∃ e, (s.booked.loadFor cluster operation).outcome inv = (.error e, inv)) ∨
      ∃ d, inv.books.find? cluster = some d ∧ d.state.allows operation = true ∧
        (s.booked.loadFor cluster operation).outcome inv = (.ok d, inv) := by
  rw [loadFor]
  rcases load_cases (s := s) cluster inv with ⟨e, he⟩ | ⟨d, hd, -, hload⟩
  · exact .inl ⟨e, Work.bind_of_error he⟩
  rw [Work.bind_of_ok hload]
  have hcheck := Work.outcome_ofExcept (ω := Booked ω) .transition
    (d.state.check cluster operation) inv
  cases hallowed : d.state.check cluster operation with
  | error e =>
    rw [hallowed] at hcheck
    exact .inl ⟨_, Work.bind_of_error hcheck⟩
  | ok u =>
    rw [hallowed] at hcheck
    rw [Work.bind_of_ok hcheck]
    have hstop := outcome_checkInterrupted s.booked inv
    by_cases hi : s.booked.interrupted inv.outside
    · rw [if_pos hi] at hstop
      exact .inl ⟨_, Work.bind_of_error hstop⟩
    · rw [if_neg hi] at hstop
      have hallows := (ClusterState.check_eq_ok_iff d.state cluster operation).1 hallowed
      exact .inr ⟨d, hd, hallows, Work.bind_of_ok hstop⟩

theorem loadFor_of_allowed {cluster : String} {operation : Operation}
    {inv : Invocation (Booked ω)} {d : ClusterDescriptor}
    (hv : isValidClusterName cluster = true) (hd : inv.books.find? cluster = some d)
    (hallows : d.state.allows operation = true)
    (hi : s.interrupted inv.outside.world = false) :
    (s.booked.loadFor cluster operation).outcome inv = (.ok d, inv) := by
  rw [loadFor, Work.bind_of_ok (load_of_find? hv hd)]
  have hcheck := Work.outcome_ofExcept (ω := Booked ω) .transition
    (d.state.check cluster operation) inv
  rw [(ClusterState.check_eq_ok_iff _ _ _).2 hallows] at hcheck ⊢
  rw [Work.bind_of_ok hcheck]
  have hstop := outcome_checkInterrupted s.booked inv
  rw [if_neg (by change ¬ s.interrupted inv.outside.world = true; simp [hi])] at hstop
  exact Work.bind_of_ok hstop

theorem save_outcome {d : ClusterDescriptor} (hv : isValidClusterName d.clusterName = true)
    (inv : Invocation (Booked ω)) :
    ∃ late after, (s.booked.save d).outcome inv = (.ok (), after) ∧
      after.books = inv.books.put late d := by
  refine ⟨s.interrupted inv.outside.world, ((s.booked.save d).outcome inv).2, ?_, ?_⟩
  · change ((s.bookStore.save d inv.outside).1.mapError OrchestratorError.store, _) = _
    simp only [bookStore, hv]
    rfl
  · change (s.bookStore.save d inv.outside).2.books = _
    simp only [bookStore, hv]
    rfl

theorem delete_outcome {cluster : String} (hv : isValidClusterName cluster = true)
    (inv : Invocation (Booked ω)) :
    ∃ late after, (Work.ofFallible OrchestratorError.store
        (Action.outside (s.booked.store.delete cluster))).outcome inv = (.ok (), after) ∧
      after.books = inv.books.drop late cluster := by
  refine ⟨s.interrupted inv.outside.world, ((Work.ofFallible OrchestratorError.store
    (Action.outside (s.booked.store.delete cluster))).outcome inv).2, ?_, ?_⟩
  · change ((s.bookStore.delete cluster inv.outside).1.mapError OrchestratorError.store, _) = _
    simp only [bookStore, hv]
    rfl
  · change (s.bookStore.delete cluster inv.outside).2.books = _
    simp only [bookStore, hv]
    rfl

/-! ## Clouds -/

theorem buildCloud_booked (s : Surroundings ω) (configs : Dict CloudConfig) (env : Environment) :
    s.booked.buildCloud configs env = (s.buildCloud configs env).map (s.bookCloud env) := by
  rw [buildCloud, buildCloud]
  cases configs.find? env.cloud with
  | none => rfl
  | some config =>
    simp only [CloudRegistry.build, booked, Dict.find?_map]
    cases Dict.find? s.clouds env.client with
    | none => rfl
    | some make =>
      simp only [Option.map_some]
      cases make env config s.settings <;> rfl

theorem namedClient_eq_ok {env : Environment} {entry : String × Cloud (Booked ω)} :
    (do
      let cloud ← s.booked.buildCloud s.booked.cloudConfigs env
      return (env.name, cloud)) = Except.ok entry ↔
      ∃ c, s.buildCloud s.cloudConfigs env = .ok c ∧ entry = (env.name, s.bookCloud env c) := by
  rw [Fallible.bind_eq_ok, buildCloud_booked]
  constructor
  · rintro ⟨cloud, hcloud, hpure⟩
    obtain ⟨c, hc, rfl⟩ := Fallible.map_eq_ok.1 hcloud
    cases hpure
    exact ⟨c, hc, rfl⟩
  · rintro ⟨c, hc, rfl⟩
    exact ⟨s.bookCloud env c, Fallible.map_eq_ok.2 ⟨c, hc, rfl⟩, rfl⟩

/-- The client found under a name is that of a listed environment of this name. -/
theorem find?_cloudsFor {environments : List Environment} {clouds : Dict (Cloud (Booked ω))}
    (h : s.booked.cloudsFor environments = .ok clouds) {name : String} {cloud : Cloud (Booked ω)}
    (hcloud : clouds.find? name = some cloud) :
    ∃ env ∈ environments, env.name = name ∧ ∃ c, cloud = s.bookCloud env c := by
  obtain ⟨built, hbuilt, hpure⟩ := Fallible.bind_eq_ok.1 h
  cases hpure
  rcases Dict.find?_foldl_insert (f := Prod.fst) (g := Prod.snd) hcloud with
    ⟨entry, hentry, hname, hvalue⟩ | ⟨-, hnone⟩
  · obtain ⟨env, henv, hclient⟩ := Fallible.exists_of_mem_mapM hbuilt entry hentry
    obtain ⟨c, -, rfl⟩ := namedClient_eq_ok.1 hclient
    exact ⟨env, henv, hname, c, hvalue.symm⟩
  · cases hnone

theorem contains_cloudsFor {environments : List Environment} {clouds : Dict (Cloud ω)}
    (h : s.cloudsFor environments = .ok clouds) {env : Environment} (henv : env ∈ environments) :
    ∃ cloud, clouds.find? env.name = some cloud := by
  obtain ⟨built, hbuilt, hpure⟩ := Fallible.bind_eq_ok.1 h
  cases hpure
  obtain ⟨entry, hentry, hclient⟩ := Fallible.exists_of_mapM_eq_ok hbuilt env henv
  obtain ⟨c, -, hpure⟩ := Fallible.bind_eq_ok.1 hclient
  cases hpure
  rw [← Dict.contains_iff]
  exact Dict.mem_keys_iff.1 (Dict.mem_keys_ofList.2 (List.mem_map.2 ⟨_, hentry, rfl⟩))

/-- The books do not change why clients cannot be made. -/
theorem alike_cloudsFor (s : Surroundings ω) (environments : List Environment) :
    Fallible.Alike (s.booked.cloudsFor environments) (s.cloudsFor environments) := by
  refine .bind (.mapM (fun env => .bind ?_ fun _ _ _ _ => .ok _ _) _) fun _ _ _ _ => .ok _ _
  rw [buildCloud_booked]
  exact .map _ _

theorem cloudsFor_booked {environments : List Environment} {clouds : Dict (Cloud ω)}
    (h : s.cloudsFor environments = .ok clouds) :
    ∃ booked, s.booked.cloudsFor environments = .ok booked :=
  (s.alike_cloudsFor environments).symm.exists_ok h

/-! ## Roles -/

theorem roles_booked (s : Surroundings ω) (context : RoleContext) :
    s.booked.roles.build context = (s.roles.build context).map (s.bookRole context) := by
  simp only [RoleRegistry.build, booked, Dict.find?_map]
  cases Dict.find? s.roles context.params.implementation <;> rfl

theorem alike_rolesOf (s : Surroundings ω) (d : ClusterDescriptor) :
    Fallible.Alike (s.booked.rolesOf d) (s.rolesOf d) := by
  have hrole : ∀ role instances,
      Fallible.Alike (s.booked.buildRole d role instances) (s.buildRole d role instances) := by
    intro role instances
    rw [buildRole, buildRole]
    cases d.component? role with
    | none => exact .error _
    | some component =>
      refine .bind (.refl _) fun hosts hosts' hhosts hhosts' => ?_
      obtain rfl := Except.ok.inj (hhosts.symm.trans hhosts')
      refine .bind ?_ fun _ _ _ _ => .ok _ _
      rw [roles_booked]
      exact (Fallible.Alike.map _ _).mapError _
  refine .bind (.refl _) fun tree tree' htree htree' => ?_
  obtain rfl := Except.ok.inj (htree.symm.trans htree')
  refine .bind ?_ fun _ _ _ _ => .ok _ _
  exact Fallible.Alike.mapM (fun group : String × List String => hrole group.1 group.2) tree.groups

theorem context_of_buildRole {d : ClusterDescriptor} {role : String}
    {instances : List String} {entry : RoleEntry (Booked ω)}
    (h : s.booked.buildRole d role instances = .ok entry) :
    ∃ context r, entry.implementation = s.bookRole context r ∧
      entry.environment = context.environment.name := by
  rw [buildRole] at h
  cases hcomponent : d.component? role with
  | none =>
    rw [hcomponent] at h
    cases h
  | some c =>
    obtain ⟨env, params⟩ := c
    simp only [hcomponent] at h
    obtain ⟨hosts, -, h⟩ := Fallible.bind_eq_ok.1 h
    obtain ⟨implementation, hbuild, hpure⟩ := Fallible.bind_eq_ok.1 h
    cases hpure
    rw [Fallible.mapError_eq_ok, roles_booked, Fallible.map_eq_ok] at hbuild
    obtain ⟨r, -, hr⟩ := hbuild
    exact ⟨_, r, hr.symm, rfl⟩

/-- The roles of a descriptor are those of the surroundings with their steps entered, each in the
environment that it has been built for. -/
theorem context_of_rolesOf {d : ClusterDescriptor} {tree : TopologyTree}
    {roles : List (RoleEntry (Booked ω))} (h : s.booked.rolesOf d = .ok (tree, roles)) :
    ∀ entry ∈ roles, ∃ context r, entry.implementation = s.bookRole context r ∧
      entry.environment = context.environment.name := by
  intro entry hentry
  obtain ⟨tree, -, h⟩ := Fallible.bind_eq_ok.1 h
  obtain ⟨entries, hentries, hpure⟩ := Fallible.bind_eq_ok.1 h
  cases hpure
  obtain ⟨group, -, hgroup⟩ := Fallible.exists_of_mem_mapM hentries entry hentry
  exact context_of_buildRole hgroup

theorem implementation_of_rolesOf {d : ClusterDescriptor} {tree : TopologyTree}
    {roles : List (RoleEntry (Booked ω))} (h : s.booked.rolesOf d = .ok (tree, roles)) :
    ∀ entry ∈ roles, ∃ context r, entry.implementation = s.bookRole context r := by
  intro entry hentry
  obtain ⟨context, r, hr, -⟩ := context_of_rolesOf h entry hentry
  exact ⟨context, r, hr⟩

variable {α : Type} {P : OutsideCall → Prop} {roles : List (RoleEntry (Booked ω))}

theorem enters_onEveryRole (step : Role (Booked ω) → Action (Booked ω) (Except RoleError α))
    (hroles : ∀ entry ∈ roles, ∃ context r, entry.implementation = s.bookRole context r)
    (hstep : ∀ context r, Enters P (step (s.bookRole context r))) :
    Enters P (onEveryRole step roles) := by
  refine Carries.onEveryRole (R := Entered P) fun entry hentry => ?_
  obtain ⟨context, r, hr⟩ := hroles entry hentry
  rw [hr]
  exact hstep context r

theorem enters_runPhase (phase : Phase)
    (step : Role (Booked ω) → Action (Booked ω) (Except RoleError Unit))
    (hroles : ∀ entry ∈ roles, ∃ context r, entry.implementation = s.bookRole context r)
    (hstep : ∀ context r, Enters P (step (s.bookRole context r))) :
    Enters P (runPhase phase step roles).outcome :=
  Enters.work_bind (Enters.ofAction (enters_onEveryRole step hroles hstep)) fun _ =>
    Enters.ofExcept _ _

end Surroundings

end BenchCluster
