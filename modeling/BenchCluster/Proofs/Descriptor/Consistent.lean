import Mathlib
import BenchCluster.Proofs.Descriptor.Allocated
import BenchCluster.Proofs.Descriptor.Cleaned
import BenchCluster.Proofs.Descriptor.Planned
import BenchCluster.Proofs.Descriptor.Started
import BenchCluster.Proofs.Journal.Answers
import BenchCluster.Proofs.Journal.Run

/-! # Descriptors are consistent

As long as clouds answer with the names and environments that were asked for, the fields of every
stored descriptor fit together, whatever has failed on the way to it.
-/

namespace BenchCluster

/-- The fields of a descriptor of a cluster fit together. -/
structure ClusterDescriptor.Consistent (d : ClusterDescriptor) (cluster : String) : Prop
    extends d.Planned where
  clusterName : d.clusterName = cluster
  members : ∀ key m, d.members.find? key = some m → m.name = key ∧
    (∃ role, (key, role) ∈ d.instances) ∧ ∃ env ∈ d.environments, env.name = m.environment
  volumes : ∀ v ∈ d.sharedStorage, ∃ env ∈ d.environments, env.name = v.environment
  notReady : d.state = .notReady → d.members.isEmpty = true ∧ d.sharedStorage = []
  complete : d.state = .allocated ∨ d.state = .ready ∨ d.state = .down → d.missingInstances = []

namespace ClusterDescriptor.Consistent

variable {d : ClusterDescriptor} {cluster : String}

theorem environment_of_owned (h : d.Consistent cluster) {m : Machine} (hm : m ∈ d.ownedMachines) :
    ∃ env ∈ d.environments, env.name = m.environment := by
  obtain ⟨key, hkey, -⟩ := mem_ownedMachines.1 hm
  exact (h.members key m hkey).2.2

theorem configured {documents : Documents} {implementation : String} {p : Plan}
    {names : Dict String} (hplan : documents.plan implementation = .ok p)
    (hexpand : p.expand = .ok names) (now : Timestamp) :
    (p.descriptor cluster names now).Consistent cluster where
  toPlanned := p.planned_descriptor hplan hexpand cluster now
  clusterName := rfl
  members := fun key m hm => by cases hm
  volumes := fun v hv => by cases hv
  notReady := fun _ => ⟨rfl, rfl⟩
  complete := fun h => by rcases h with h | h | h <;> cases h

theorem environment_of_mem_machines {a : Allocating cluster d}
    (hfaithful : ∀ e ∈ a.entries, e.call.Faithful) {m : Machine}
    (hm : m ∈ a.allocation.machines) : ∃ env ∈ d.environments, env.name = m.environment := by
  rcases a.mem_machines.1 hm with hexternal | ⟨x, hx, hmachine⟩
  · obtain ⟨role, -, hprovision⟩ := mem_provisions a.provisions_eq hexternal
    obtain ⟨env, params, hcomponent, -, hmachine⟩ := provision_eq_external hprovision
    exact ⟨env, component?_eq_some hcomponent, (External.machine?_eq_some hmachine).2.1.symm⟩
  · obtain ⟨answered, hvalue, rfl⟩ := Attempt.machine?_eq_some.1 hmachine
    have hentry := hfaithful _ (List.mem_append_left _
      (Errand.entry_mem hx (Attempt.value?_eq_some.1 hvalue)))
    have hlisted := environment_of_request a.provisions_eq (a.launches_served.request_mem hx)
    exact ⟨_, hlisted, hentry.2.symm⟩

theorem environment_of_mem_newVolumes {a : Allocating cluster d}
    (hfaithful : ∀ e ∈ a.entries, e.call.Faithful) {v : Volume} (hv : v ∈ a.newVolumes) :
    ∃ env ∈ d.environments, env.name = v.environment := by
  obtain ⟨x, hx, hvalue⟩ := List.mem_filterMap.1 hv
  have hentry := hfaithful _ (List.mem_append_right _
    (Errand.entry_mem hx (Attempt.value?_eq_some.1 hvalue)))
  have hlisted := environment_of_missingVolume (a.volumes_served.request_mem hx)
  exact ⟨_, hlisted, hentry.2.symm⟩

/-- An allocation adds members for missing instances, and machines and volumes where they were
requested. -/
theorem allocated (h : d.Consistent cluster) (a : Allocating cluster d)
    (hfaithful : ∀ e ∈ a.entries, e.call.Faithful) : a.descriptor.Consistent cluster where
  roles := h.roles
  components := h.components
  clusterName := h.clusterName
  members := by
    intro key m hm
    rcases a.find?_members hm with hd | ⟨hnew, rfl⟩
    · exact h.members key m hd
    · obtain ⟨role, hrole⟩ := a.missing_of_mem_machines hnew
      exact ⟨rfl, ⟨role, (mem_missingInstances_iff.1 hrole).1⟩,
        environment_of_mem_machines hfaithful hnew⟩
  volumes := by
    intro v hv
    rw [a.sharedStorage_perm.mem_iff, List.mem_append] at hv
    rcases hv with hv | hv
    · exact h.volumes v hv
    · exact environment_of_mem_newVolumes hfaithful hv
  notReady := by
    intro hstate
    rw [a.state_descriptor] at hstate
    split at hstate
    · cases hstate
    · cases hstate
  complete := by
    intro hstate
    by_cases hfailed : a.allocation.failed.isEmpty
    · exact a.missingInstances_of_failed_isEmpty hfailed
    · rw [a.state_descriptor, if_neg hfailed] at hstate
      rcases hstate with hstate | hstate | hstate <;> cases hstate

/-- Installing, stopping and starting move a complete cluster between states of complete ones. -/
theorem moved (h : d.Consistent cluster)
    (hstate : d.state = .allocated ∨ d.state = .ready ∨ d.state = .down)
    (target : Option ConnectionTarget) (state : ClusterState) (hnew : state ≠ .notReady) :
    { d with connectionTarget := target, state := state }.Consistent cluster where
  roles := h.roles
  components := h.components
  clusterName := h.clusterName
  members := h.members
  volumes := h.volumes
  notReady := fun hnone => absurd hnone hnew
  complete := fun _ => h.complete hstate

theorem find?_of_stoppable (h : d.Consistent cluster) {m : Machine}
    (hm : m ∈ d.stoppableMachines) : d.members.find? m.name = some m := by
  obtain ⟨hvalue, -⟩ := List.mem_filter.1 hm
  obtain ⟨key, hkey⟩ := Dict.mem_values_iff.1 hvalue
  rwa [(h.members key m hkey).1]

theorem find?_of_owned (h : d.Consistent cluster) {m : Machine} (hm : m ∈ d.ownedMachines) :
    d.members.find? m.name = some m := by
  obtain ⟨key, hkey, -⟩ := mem_ownedMachines.1 hm
  rwa [(h.members key m hkey).1]

/-- A machine that has come up takes the place of the member it was. -/
theorem started (h : d.Consistent cluster) (x : Starting d) (hstate : d.state = .down)
    (hfaithful : ∀ e ∈ x.entries, e.call.Faithful) : x.descriptor.Consistent cluster := by
  have hmember : ∀ y ∈ x.attempts, d.members.find? y.request.name = some y.request :=
    fun y hy => h.find?_of_stoppable (x.served.request_mem hy)
  have hcontains : ∀ key, x.descriptor.members.contains key = d.members.contains key := by
    intro key
    rw [Bool.eq_iff_iff, x.contains_members]
    refine or_iff_right_of_imp ?_
    rintro ⟨y, hy, rfl, -⟩
    exact Dict.contains_iff.2 ⟨_, hmember y hy⟩
  refine ⟨⟨h.roles, h.components⟩, h.clusterName, fun key m hm => ?_, h.volumes, fun hnone => ?_,
    fun _ => ?_⟩
  · rcases x.find?_members hm with hd | ⟨y, hy, rfl, hvalue⟩
    · exact h.members key m hd
    · have hentry := hfaithful _ (Errand.entry_mem hy (Attempt.value?_eq_some.1 hvalue))
      obtain ⟨-, hinstance, hlisted⟩ := h.members _ _ (hmember y hy)
      refine ⟨hentry.1, hinstance, ?_⟩
      rw [hentry.2]
      exact hlisted
  · change d.state = .notReady at hnone
    rw [hstate] at hnone
    cases hnone
  · have hmissing := h.complete (.inr (.inr hstate))
    rw [missingInstances, List.filter_eq_nil_iff] at hmissing ⊢
    intro i hi
    change ¬ (!x.descriptor.members.contains i.1) = true
    rw [hcontains]
    exact hmissing i hi

theorem cleaned (h : d.Consistent cluster) (c : Cleaning d) :
    { c.left with state := .failed }.Consistent cluster where
  roles := h.roles
  components := h.components
  clusterName := h.clusterName
  members := fun key m hm => h.members key m (c.find?_members_left.1 hm).1
  volumes := fun v hv => h.volumes v (c.mem_sharedStorage_left.1 hv).1
  notReady := fun hnone => by cases hnone
  complete := fun hstate => by rcases hstate with hstate | hstate | hstate <;> cases hstate

end ClusterDescriptor.Consistent

/-! ## Every run -/

namespace Books

def Consistent (b : Books) : Prop := b.Every fun cluster d => d.Consistent cluster

theorem Consistent.put {b : Books} (h : b.Consistent) (late : Bool) {cluster : String}
    {d : ClusterDescriptor} (hd : d.Consistent cluster) : (b.put late d).Consistent := by
  apply Every.put h late
  rw [hd.clusterName]
  exact hd

end Books

/-- A change keeps descriptors consistent if the answers in the journal are faithful. -/
theorem Change.consistent {cluster : String} {b b' : Books} (h : Change cluster b b')
    (hall : b.Consistent) (hfaithful : ∀ e ∈ b'.journal, e.call.Faithful) : b'.Consistent := by
  cases h with
  | noted inert => exact hall
  | configured valid vacant planned expanded =>
    exact hall.put _ (.configured planned expanded _)
  | @allocated d _ _ stored allowed a =>
    have hd := (hall _ _ stored).allocated a fun e he => hfaithful e (by simp [he])
    exact Books.Consistent.put (b := b.enter a.entries) hall _ hd
  | installed stored allowed =>
    have hstate := ClusterState.allows_install_iff.1 allowed
    exact hall.put _ ((hall _ _ stored).moved (.inl hstate) _ _ (by decide))
  | stopped stored allowed =>
    have hstate := ClusterState.allows_stop_iff.1 allowed
    exact hall.put _ ((hall _ _ stored).moved (.inr (.inl hstate)) _ _ (by decide))
  | @woken _ steps _ stored allowed x inert failed =>
    have hstate := ClusterState.allows_start_iff.1 allowed
    have hd := (hall _ _ stored).started x hstate fun e he => hfaithful e (by simp [he])
    exact Books.Consistent.put (b := b.enter (x.entries ++ steps)) hall _ hd
  | @started d steps _ stored allowed x inert succeeded =>
    have hstate := ClusterState.allows_start_iff.1 allowed
    have hd := (hall _ _ stored).started x hstate fun e he => hfaithful e (by simp [he])
    have hmoved := hd.moved (.inr (.inr hstate)) d.connectionTarget .ready (by decide)
    exact Books.Consistent.put (b := b.enter (x.entries ++ steps)) hall _ hmoved
  | @cleaned d _ stored c =>
    rw [Cleaning.settle]
    split
    · exact Books.Every.drop (b := b.enter c.entries) hall _ _
    · exact Books.Consistent.put (b := b.enter c.entries) hall _ ((hall _ _ stored).cleaned c)
  | abandoned stored volume unlisted => exact hall

/-- After every run in which clouds have answered faithfully all descriptors are consistent. -/
theorem Books.consistent_after (turns : List Turn)
    (hfaithful : ∀ e ∈ (Books.after turns).journal, e.call.Faithful) :
    (Books.after turns).Consistent := by
  refine (after_induction (P := fun b => (∀ e ∈ b.journal, e.call.Faithful) → b.Consistent) turns
    (fun _ cluster d hd => by cases hd) fun t _ b b' hnamed hb hchange hfaithful => ?_).2 hfaithful
  have hgrows := (hchange.extendsBooks hnamed).journal_grows
  exact hchange.consistent (hb fun e he => hfaithful e (hgrows.subset he)) hfaithful

/-- Every environment that a descriptor mentions has its client. -/
structure ClusterDescriptor.ServedBy {ω : Type} (d : ClusterDescriptor)
    (clouds : Dict (Cloud ω)) : Prop where
  components : ∀ role ∈ d.topology.roles, ∃ env params cloud,
    d.component? role = some (env, params) ∧ clouds.find? env.name = some cloud
  members : ∀ key m, d.members.find? key = some m →
    ∃ cloud, clouds.find? m.environment = some cloud
  volumes : ∀ v ∈ d.sharedStorage, ∃ cloud, clouds.find? v.environment = some cloud

/-- If the clients for the environments of a consistent descriptor can be made, looking one up never
fails. -/
theorem ClusterDescriptor.Consistent.servedBy {ω : Type} {d : ClusterDescriptor} {cluster : String}
    (h : d.Consistent cluster) {s : Surroundings ω} {clouds : Dict (Cloud ω)}
    (hclouds : s.cloudsFor d.environments = .ok clouds) : d.ServedBy clouds where
  components := by
    intro role hrole
    obtain ⟨env, params, hcomponent, henv⟩ := h.components role hrole
    obtain ⟨cloud, hcloud⟩ := Surroundings.contains_cloudsFor hclouds henv
    exact ⟨env, params, cloud, hcomponent, hcloud⟩
  members := by
    intro key m hm
    obtain ⟨-, -, env, henv, hname⟩ := h.members key m hm
    rw [← hname]
    exact Surroundings.contains_cloudsFor hclouds henv
  volumes := by
    intro v hv
    obtain ⟨env, henv, hname⟩ := h.volumes v hv
    rw [← hname]
    exact Surroundings.contains_cloudsFor hclouds henv

/-- Whatever invocations have run and whatever has failed in them, every stored descriptor is
consistent, and with clients for its environments no look-up of one fails. -/
theorem stored_descriptor_consistent (turns : List Turn)
    (hfaithful : ∀ e ∈ (Books.after turns).journal, e.call.Faithful) {cluster : String}
    {d : ClusterDescriptor} (hd : (Books.after turns).find? cluster = some d) :
    d.Consistent cluster ∧ ∀ {ω : Type} (s : Surroundings ω) (clouds : Dict (Cloud ω)),
      s.cloudsFor d.environments = .ok clouds → d.ServedBy clouds :=
  have hconsistent := Books.consistent_after turns hfaithful cluster d hd
  ⟨hconsistent, fun _ _ hclouds => hconsistent.servedBy hclouds⟩

/-- What could not be torn down is still in a descriptor that is consistent. -/
theorem sample_descriptor_consistent : ∃ d clouds,
    (Books.after (Sample.setbacks Sample.surroundings)).find? "c" = some d ∧
      (d.state, d.members.keys, d.sharedStorage.map Volume.name) =
        (.failed, ["db_1", "db_2"], ["logs", "data"]) ∧
      d.Consistent "c" ∧ Sample.surroundings.cloudsFor d.environments = .ok clouds ∧
      d.ServedBy clouds := by
  let turns := Sample.setbacks Sample.surroundings
  have hplayed : ((Books.after turns).journal.all fun e => decide e.call.Faithful,
      ((Books.after turns).find? "c").map fun d =>
        ((d.state, d.members.keys, d.sharedStorage.map Volume.name),
          (Sample.surroundings.cloudsFor d.environments).isOk)) =
      (true, some ((.failed, ["db_1", "db_2"], ["logs", "data"]), true)) := by
    cbv
  obtain ⟨hall, hstored⟩ := Prod.mk.inj hplayed
  have hfaithful : ∀ e ∈ (Books.after turns).journal, e.call.Faithful := fun e he =>
    of_decide_eq_true (List.all_eq_true.1 hall e he)
  obtain ⟨d, hd, hpair⟩ := Option.map_eq_some_iff.1 hstored
  obtain ⟨hleft, hbuilt⟩ := Prod.mk.inj hpair
  obtain ⟨clouds, hclouds⟩ := Fallible.isOk_iff.1 hbuilt
  obtain ⟨hconsistent, hserved⟩ := stored_descriptor_consistent turns hfaithful hd
  exact ⟨d, clouds, hd, hleft, hconsistent, hclouds, hserved Sample.surroundings clouds hclouds⟩

end BenchCluster
