import BenchCluster.Proofs.Config.Region
import BenchCluster.Proofs.Descriptor.Allocated
import BenchCluster.Proofs.Descriptor.Planned
import BenchCluster.Proofs.Journal.Restraint
import BenchCluster.Proofs.Topology.Groups
import BenchCluster.Proofs.Topology.Instances

/-! # What a configuration fixes, over runs

What the descriptors of all plans have in common is true of every stored descriptor if it is about
what only a configuration changes. The parameters of a role bear its name, and its instances are
numbered. A complete cluster has a member for every instance.
-/

namespace BenchCluster

/-- The parameters of every role bear its name, and give the number of its instances. -/
structure ClusterDescriptor.Numbered (d : ClusterDescriptor) : Prop extends d.Planned where
  role : ∀ role env params, d.component? role = some (env, params) → params.role = role
  names : ∀ role env params, role ∈ d.topology.roles → d.component? role = some (env, params) →
    0 < params.count.toNat ∧
      d.topologyMap.find? role = some (joinedInstances role params.count.toNat)

/-- A cluster that has been allocated has a member for every instance. -/
def ClusterDescriptor.Complete (d : ClusterDescriptor) : Prop :=
  d.state = .allocated ∨ d.state = .ready ∨ d.state = .down → d.missingInstances = []

namespace ClusterDescriptor

variable {d after : ClusterDescriptor}

theorem SamePlan.numbered (h : d.SamePlan after) (hd : d.Numbered) : after.Numbered := by
  rw [SamePlan] at h
  rw [h]
  exact ⟨⟨hd.roles, hd.components⟩, hd.role, hd.names⟩

theorem Numbered.expanded (h : d.Numbered) : d.Expanded := by
  intro role names hnames
  have hrole : role ∈ d.topology.roles := by
    rw [← h.roles, Dict.mem_keys_iff, Dict.contains_iff]
    exact ⟨names, hnames⟩
  obtain ⟨env, params, hcomponent, -⟩ := h.components role hrole
  obtain ⟨hcount, hjoined⟩ := h.names role env params hrole hcomponent
  rw [hnames, Option.some.injEq] at hjoined
  rw [hjoined]
  exact joinedInstances_ne role hcount

/-- The instances of a role without a comma are numbered from zero. -/
theorem Numbered.instancesOf_eq (h : d.Numbered) {role : String} {env : Environment}
    {params : ComponentParams} (hrole : role ∈ d.topology.roles)
    (hcomponent : d.component? role = some (env, params)) (hcomma : ',' ∉ role.toList) :
    d.instancesOf role = (List.range params.count.toNat).map (instanceName role) := by
  rw [instancesOf, (h.names role env params hrole hcomponent).2]
  exact words_joinedInstances_of_not_mem hcomma _

theorem Complete.exists_member (h : d.Complete)
    (hstate : d.state = .allocated ∨ d.state = .ready ∨ d.state = .down) {role name : String}
    (hname : name ∈ d.instancesOf role) : ∃ m, d.members.find? name = some m := by
  cases hm : d.members.find? name with
  | some m => exact ⟨m, rfl⟩
  | none =>
    have hmissing : (name, role) ∈ d.missingInstances :=
      mem_missingInstances_iff.2 ⟨mem_instances_iff.2 hname, hm⟩
    rw [h hstate] at hmissing
    cases hmissing

end ClusterDescriptor

section

variable {documents : Documents} {implementation : String} {p : Plan} {names : Dict String}

/-- Wherever the components of a plan hold parameters of a role, the documents ask for them. -/
theorem Plan.asks_of_components (hplan : documents.plan implementation = .ok p)
    {name role : String} {roles : Dict ComponentParams} {params : ComponentParams}
    (hroles : p.components.find? name = some roles) (hparams : roles.find? role = some params) :
    ∃ env, documents.Asks implementation role env params := by
  obtain ⟨hplaced, -⟩ := Documents.placed_of_plan hplan
  obtain ⟨env, -, hasks⟩ := (hplaced.find?_components name role params).1
    (Option.bind_eq_some_iff.2 ⟨roles, hroles, hparams⟩)
  exact ⟨env, hasks⟩

theorem Plan.asks_of_component? (hplan : documents.plan implementation = .ok p) (cluster : String)
    (now : Timestamp) {role : String} {env : Environment} {params : ComponentParams}
    (h : (p.descriptor cluster names now).component? role = some (env, params)) :
    ∃ env, documents.Asks implementation role env params := by
  obtain ⟨name, roles, hroles, hparams, -⟩ := ClusterDescriptor.exists_table_of_component? h
  exact Plan.asks_of_components hplan hroles hparams

theorem Plan.numbered_descriptor (hplan : documents.plan implementation = .ok p)
    (hexpand : p.expand = .ok names) (cluster : String) (now : Timestamp) :
    (p.descriptor cluster names now).Numbered := by
  refine ⟨p.planned_descriptor hplan hexpand cluster now, fun role env params h => ?_,
    fun role env params hrole h => ?_⟩
  · obtain ⟨_, config, topology, overrides, cloud, -, -, -, -, -, -, hparams, -⟩ :=
      Plan.asks_of_component? hplan cluster now h
    exact (Documents.names_of_componentParams hparams).1
  · obtain ⟨_, hasks⟩ := Plan.asks_of_component? hplan cluster now h
    obtain ⟨⟨tree, names'⟩, htree, rfl⟩ := Fallible.map_eq_ok.1 hexpand
    obtain ⟨-, hcompletes⟩ := TopologyTree.expand_ofTemplate_eq_ok htree
    obtain ⟨k, hk, hcount, hnames⟩ := hcompletes.counted hrole
    obtain ⟨n, hn, rfl⟩ := Option.map_eq_some_iff.1 hcount
    obtain ⟨name, roles, params', hroles, hparams', rfl⟩ := p.exists_of_countOf hn
    obtain ⟨_, hasks'⟩ := Plan.asks_of_components hplan hroles hparams'
    obtain ⟨-, rfl⟩ := hasks.unique hasks'
    exact ⟨hk, hnames⟩

end

/-! ## Every run -/

namespace Effect

variable {cluster : String} {request : Request} {b b' : Books}
  {answer : Except OrchestratorError (Option ClusterDescriptor)} {P : ClusterDescriptor → Prop}

/-- What plans have and what is kept where the plan is kept, stored descriptors go on having. -/
theorem every_of_samePlan (h : Effect cluster b request answer b')
    (hsame : ∀ d after, d.SamePlan after → P d → P after)
    (hplan : ∀ documents implementation p names cluster now,
      Documents.plan documents implementation = .ok p → p.expand = .ok names →
        P (p.descriptor cluster names now))
    (hall : b.Every fun _ d => P d) : b'.Every fun _ d => P d := by
  have hput : ∀ {operation : Operation} {d after : ClusterDescriptor} {late : Bool}
      (entries : List JournalEntry), b.Loaded cluster operation d → d.SamePlan after →
        ((b.enter entries).put late after).Every fun _ d => P d := by
    intro operation d after late entries loaded hd
    exact Books.Every.put (b := b.enter entries) hall _ (hsame d after hd (hall _ _ loaded.stored))
  cases h with
  | refused refusal unaccepted => exact hall
  | failed mishap nothing => exact hall
  | configured valid inert accepted planned expanded =>
    exact Books.Every.put (b := b.enter _) hall _ (hplan _ _ _ _ _ _ planned expanded)
  | lost loaded a mishap => exact hall
  | allocated loaded a => exact hput _ loaded (by rfl)
  | made loaded inert => exact hall
  | installed loaded inert => exact hput _ loaded (by rfl)
  | stopped loaded inert => exact hput _ loaded (by rfl)
  | woken loaded x failures => exact hput _ loaded (by rfl)
  | started loaded x inert => exact hput _ loaded (by rfl)
  | cleaned loaded roles c =>
    rw [Cleaning.settle]
    split
    · exact Books.Every.drop (b := b.enter _) hall _ _
    · exact hput _ loaded (by rfl)

end Effect

theorem Effect.numbered {cluster : String} {request : Request} {b b' : Books}
    {answer : Except OrchestratorError (Option ClusterDescriptor)}
    (h : Effect cluster b request answer b') (hall : b.Every fun _ d => d.Numbered) :
    b'.Every fun _ d => d.Numbered :=
  h.every_of_samePlan (fun _ _ hsame => hsame.numbered)
    (fun _ _ p _ cluster now hplan hexpand => p.numbered_descriptor hplan hexpand cluster now) hall

theorem Starting.missingInstances_eq_nil {d : ClusterDescriptor} (x : Starting d)
    (h : d.missingInstances = []) : x.descriptor.missingInstances = [] := by
  rw [ClusterDescriptor.missingInstances, List.filter_eq_nil_iff] at h ⊢
  intro i hi hmissing
  rw [Bool.not_eq_true', ← Bool.not_eq_true, x.contains_members, not_or] at hmissing
  exact h i hi (by simpa using hmissing.2)

/-- Operations keep complete clusters complete. -/
theorem Effect.complete {cluster : String} {request : Request} {b b' : Books}
    {answer : Except OrchestratorError (Option ClusterDescriptor)}
    (h : Effect cluster b request answer b') (hall : b.Every fun _ d => d.Complete) :
    b'.Every fun _ d => d.Complete := by
  have hput : ∀ {d : ClusterDescriptor} {late : Bool} (entries : List JournalEntry), d.Complete →
      ((b.enter entries).put late d).Every fun _ d => d.Complete := by
    intro d late entries hd
    exact Books.Every.put (b := b.enter entries) hall _ hd
  cases h with
  | refused refusal unaccepted => exact hall
  | failed mishap nothing => exact hall
  | configured valid inert accepted planned expanded =>
    refine hput _ ?_
    rintro (hstate | hstate | hstate) <;> cases hstate
  | lost loaded a mishap => exact hall
  | allocated loaded a =>
    refine hput _ fun hstate => ?_
    by_cases hfailed : a.allocation.failed.isEmpty
    · exact a.missingInstances_of_failed_isEmpty hfailed
    · rw [a.state_descriptor, if_neg hfailed] at hstate
      rcases hstate with hstate | hstate | hstate <;> cases hstate
  | made loaded inert => exact hall
  | installed loaded inert =>
    have hstate := ClusterState.allows_install_iff.1 loaded.allowed
    have hmissing := hall _ _ loaded.stored (.inl hstate)
    exact hput _ fun _ => hmissing
  | stopped loaded inert =>
    have hstate := ClusterState.allows_stop_iff.1 loaded.allowed
    have hmissing := hall _ _ loaded.stored (.inr (.inl hstate))
    exact hput _ fun _ => hmissing
  | woken loaded x failures =>
    have hstate := ClusterState.allows_start_iff.1 loaded.allowed
    have hmissing := hall _ _ loaded.stored (.inr (.inr hstate))
    exact hput _ fun _ => x.missingInstances_eq_nil hmissing
  | started loaded x inert =>
    have hstate := ClusterState.allows_start_iff.1 loaded.allowed
    have hmissing := hall _ _ loaded.stored (.inr (.inr hstate))
    exact hput _ fun _ => x.missingInstances_eq_nil hmissing
  | cleaned loaded roles c =>
    rw [Cleaning.settle]
    split
    · exact Books.Every.drop (b := b.enter _) hall _ _
    · refine hput _ ?_
      rintro (hstate | hstate | hstate) <;> cases hstate

namespace Books

theorem numbered_afterVentures (turns : List Turn) :
    (afterVentures turns).Every fun _ d => d.Numbered :=
  afterVentures_induction (P := fun b => b.Every fun _ d => d.Numbered) turns (every_blank _)
    fun _ _ _ _ _ _ _ hb h => h.numbered hb

theorem complete_afterVentures (turns : List Turn) :
    (afterVentures turns).Every fun _ d => d.Complete :=
  afterVentures_induction (P := fun b => b.Every fun _ d => d.Complete) turns
    (every_blank _) fun _ _ _ _ _ _ _ hb h => h.complete hb

end Books

end BenchCluster
