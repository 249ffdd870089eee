import BenchCluster.Proofs.Config.Placement
import BenchCluster.Proofs.Journal.Run
import BenchCluster.Proofs.Topology.Expansion

/-! # What a configuration fixes

The descriptor of a plan has instance names for exactly the roles of its topology, and every one of
these roles has a component in a listed environment. Nothing but another configuration changes it.
-/

namespace BenchCluster

/-- The roles of the topology are those with instance names, and all of them have components. -/
structure ClusterDescriptor.Planned (d : ClusterDescriptor) : Prop where
  roles : d.topologyMap.keys = d.topology.roles
  components : ∀ role ∈ d.topology.roles, ∃ env params,
    d.component? role = some (env, params) ∧ env ∈ d.environments

namespace ClusterDescriptor

theorem Planned.component_of_instance {d : ClusterDescriptor} (h : d.Planned) {name role : String}
    (hi : (name, role) ∈ d.instances) :
    ∃ env params, d.component? role = some (env, params) ∧ env ∈ d.environments := by
  apply h.components
  rw [← h.roles, Dict.mem_keys_iff, Dict.contains_iff]
  rw [mem_instances_iff, instancesOf] at hi
  cases hnames : d.topologyMap.find? role with
  | none =>
    rw [hnames] at hi
    cases hi
  | some names => exact ⟨names, rfl⟩

theorem Planned.restore_eq {d : ClusterDescriptor} (h : d.Planned) :
    TopologyTree.restore d.topology d.topologyMap =
      .ok (TopologyTree.named d.topology d.topologyMap) := by
  refine TopologyTree.restore_eq_ok_iff.2 ⟨fun role hrole => ?_, rfl⟩
  rwa [← Dict.mem_keys_iff, h.roles]

theorem Planned.exists_provisions {d : ClusterDescriptor} (h : d.Planned) (cluster : String) :
    ∃ provisions, d.provisions cluster = .ok provisions := by
  apply ClusterDescriptor.exists_provisions
  intro name role hmissing
  obtain ⟨env, params, hcomponent, -⟩ :=
    h.component_of_instance (mem_missingInstances_iff.1 hmissing).1
  exact ⟨env, params, hcomponent⟩

end ClusterDescriptor

/-- The descriptor of a plan that can be expanded is planned. -/
theorem Plan.planned_descriptor {documents : Documents} {implementation : String} {p : Plan}
    {names : Dict String} (hplan : documents.plan implementation = .ok p)
    (hexpand : p.expand = .ok names) (cluster : String) (now : Timestamp) :
    (p.descriptor cluster names now).Planned := by
  obtain ⟨⟨tree, names'⟩, htree, rfl⟩ := Fallible.map_eq_ok.1 hexpand
  obtain ⟨-, hcompletes⟩ := TopologyTree.expand_ofTemplate_eq_ok htree
  refine ⟨hcompletes.keys_eq, fun role hrole => ?_⟩
  obtain ⟨k, -, hcount, -⟩ := hcompletes.counted hrole
  obtain ⟨n, hn, -⟩ := Option.map_eq_some_iff.1 hcount
  obtain ⟨name, roles, params, hroles, hparams, -⟩ := p.exists_of_countOf hn
  obtain ⟨env, henv, rfl⟩ := Documents.listed_of_plan hplan name roles hroles
  obtain ⟨e, he⟩ := ClusterDescriptor.exists_environment?
    (d := p.descriptor cluster names' now) henv
  obtain ⟨e', params', hcomponent⟩ := ClusterDescriptor.exists_component?
    (d := p.descriptor cluster names' now) hroles hparams he
  exact ⟨e', params', hcomponent, ClusterDescriptor.component?_eq_some hcomponent⟩

namespace Surroundings

variable {ω : Type} {s : Surroundings ω} {cluster implementation : String} {documents : Documents}
  {force : Bool} {d : ClusterDescriptor} {inv last : Invocation ω}

/-- A configuration that succeeds answers the descriptor of the plan, for whose environments there
are clients, and has stored it last. -/
theorem configure_eq_ok
    (h : (s.configure cluster documents implementation force).outcome inv = (.ok d, last)) :
    ∃ plan names now before, documents.plan implementation = .ok plan ∧ plan.expand = .ok names ∧
      (∀ env ∈ plan.environments, ∃ cloud, s.buildCloud documents.clouds env = .ok cloud) ∧
      d = plan.descriptor cluster names now ∧ (s.save d).outcome before = (.ok (), last) := by
  rw [configure] at h
  obtain ⟨_, first, -, h⟩ := Work.exists_of_bind_ok h
  obtain ⟨_, vacant, -, h⟩ := Work.exists_of_bind_ok h
  obtain ⟨plan, planned, hplan, h⟩ := Work.exists_of_bind_ok h
  obtain ⟨names, expanded, hnames, h⟩ := Work.exists_of_bind_ok h
  obtain ⟨_, idle, hidle, h⟩ := Work.exists_of_bind_ok h
  obtain ⟨now, timed, -, h⟩ := Work.exists_of_bind_ok h
  obtain ⟨_, saved, hsaved, h⟩ := Work.exists_of_bind_ok h
  cases h
  refine ⟨plan, names, _, timed, Fallible.mapError_eq_ok.1 (congrArg Prod.fst hplan),
    Fallible.mapError_eq_ok.1 (congrArg Prod.fst hnames), fun env henv => ?_, rfl, hsaved⟩
  obtain ⟨_, before, later, hcheck⟩ := Work.exists_of_forM_ok hidle env henv
  obtain ⟨cloud, made, hmade, -⟩ := Work.exists_of_bind_ok hcheck
  exact ⟨cloud, Fallible.mapError_eq_ok.1 (congrArg Prod.fst hmade)⟩

end Surroundings

/-! ## Every run -/

/-- A change leaves the plans of clusters as they are, or makes one. -/
theorem Change.planned {cluster : String} {b b' : Books} (h : Change cluster b b')
    (hall : b.Every fun _ d => d.Planned) : b'.Every fun _ d => d.Planned := by
  cases h with
  | noted inert => exact hall
  | configured valid vacant planned expanded =>
    exact hall.put _ (Plan.planned_descriptor planned expanded cluster _)
  | allocated stored allowed a =>
    have hd := hall _ _ stored
    exact Books.Every.put (b := b.enter a.entries) hall _ ⟨hd.roles, hd.components⟩
  | installed stored allowed =>
    have hd := hall _ _ stored
    exact hall.put _ ⟨hd.roles, hd.components⟩
  | stopped stored allowed =>
    have hd := hall _ _ stored
    exact hall.put _ ⟨hd.roles, hd.components⟩
  | @woken _ steps _ stored allowed x inert failed =>
    have hd := hall _ _ stored
    exact Books.Every.put (b := b.enter (x.entries ++ steps)) hall _ ⟨hd.roles, hd.components⟩
  | @started _ steps _ stored allowed x inert succeeded =>
    have hd := hall _ _ stored
    exact Books.Every.put (b := b.enter (x.entries ++ steps)) hall _ ⟨hd.roles, hd.components⟩
  | cleaned stored c =>
    have hd := hall _ _ stored
    rw [Cleaning.settle]
    split
    · exact Books.Every.drop (b := b.enter c.entries) hall _ _
    · exact Books.Every.put (b := b.enter c.entries) hall _ ⟨hd.roles, hd.components⟩
  | abandoned stored volume unlisted => exact hall

/-- After every run all stored descriptors are planned. -/
theorem Books.planned_after (turns : List Turn) :
    (Books.after turns).Every fun _ d => d.Planned :=
  (after_induction (P := fun b => b.Every fun _ d => d.Planned) turns
    (fun _ _ hd => by cases hd) fun _ _ _ _ _ hb hchange => hchange.planned hb).2

end BenchCluster
