import BenchCluster.Proofs.Descriptor.Consistent

/-! # Machines and volumes are never lost track of

The owned members of the stored descriptor are the machines that the journal says there are, and
its shared storage are the volumes. An operation that gains or loses any of them leaves a
descriptor that agrees with the journal again, however much of it has failed.
-/

namespace BenchCluster

namespace ClusterDescriptor

/-- Under a key there is an owned member with an id. -/
def Owns (d : ClusterDescriptor) (key id : String) : Prop :=
  ∃ m, d.members.find? key = some m ∧ m.isOwned = true ∧ m.id = id

/-- The descriptor has exactly the machines and volumes that there are according to a journal, each
of them once. -/
structure Tracks (d : ClusterDescriptor) (journal : List JournalEntry) : Prop where
  machines : ∀ id, id ∈ Ledger.machines.live journal ↔ ∃ key, d.Owns key id
  distinct : ∀ key key' id, d.Owns key id → d.Owns key' id → key = key'
  volumes : (Ledger.volumes.live journal).Perm d.sharedStorage

namespace Tracks

variable {d : ClusterDescriptor} {cluster : String} {journal : List JournalEntry}

/-- Calls that gain and lose nothing do not matter, and neither do changes of members that keep
their ids and owners. -/
theorem of_same {d' : ClusterDescriptor} {entries : List JournalEntry} (h : d.Tracks journal)
    (howns : ∀ key id, d'.Owns key id ↔ d.Owns key id)
    (hvolumes : d'.sharedStorage = d.sharedStorage)
    (hidle : ∀ e ∈ entries, (Ledger.machines.gained e.call = none ∧
      Ledger.machines.lost e.call = none) ∧ Ledger.volumes.gained e.call = none ∧
        Ledger.volumes.lost e.call = none) : d'.Tracks (journal ++ entries) where
  machines := by
    intro id
    rw [Ledger.live_append, Ledger.foldl_of_idle _ fun e he => (hidle e he).1, h.machines]
    exact exists_congr fun key => (howns key id).symm
  distinct := fun key key' id hkey hkey' =>
    h.distinct key key' id ((howns key id).1 hkey) ((howns key' id).1 hkey')
  volumes := by
    rw [Ledger.live_append, Ledger.foldl_of_idle _ fun e he => (hidle e he).2, hvolumes]
    exact h.volumes

end Tracks

end ClusterDescriptor

namespace Allocating

variable {cluster : String} {d : ClusterDescriptor} (a : Allocating cluster d)
  {journal : List JournalEntry}

theorem live_machines : Ledger.machines.live (journal ++ a.entries) =
    Ledger.machines.live journal ++ a.newMachines.map Machine.id := by
  have hlaunches := Ledger.machines.foldl_gains Errand.launching
    (fun x => x.machine?.map Machine.id)
    (fun x r hx => by
      rcases r with e | _ | m <;>
        simp [Ledger.machines, Errand.launching, Attempt.machine?, Attempt.value?, hx])
    (fun x hx => by simp [Attempt.machine?, Attempt.value?, hx])
    a.launches (Ledger.machines.live journal)
  have hvolumes : ∀ e ∈ a.volumes.flatMap Errand.creating.entries,
      Ledger.machines.gained e.call = none ∧ Ledger.machines.lost e.call = none := by
    intro e he
    obtain ⟨x, -, r, -, rfl⟩ := Errand.mem_flatMap_entries he
    exact ⟨rfl, rfl⟩
  rw [Ledger.live_append, entries, List.foldl_append, hlaunches, Ledger.foldl_of_idle _ hvolumes,
    newMachines, List.map_filterMap]

theorem live_volumes : Ledger.volumes.live (journal ++ a.entries) =
    Ledger.volumes.live journal ++ a.newVolumes := by
  have hlaunches : ∀ e ∈ a.launches.flatMap Errand.launching.entries,
      Ledger.volumes.gained e.call = none ∧ Ledger.volumes.lost e.call = none := by
    intro e he
    obtain ⟨x, -, r, -, rfl⟩ := Errand.mem_flatMap_entries he
    exact ⟨rfl, rfl⟩
  have hvolumes := Ledger.volumes.foldl_gains Errand.creating Attempt.value?
    (fun x r hx => by
      rcases r with e | v <;> simp [Ledger.volumes, Errand.creating, Attempt.value?, hx])
    (fun x hx => by simp [Attempt.value?, hx]) a.volumes (Ledger.volumes.live journal)
  rw [Ledger.live_append, entries, List.foldl_append, Ledger.foldl_of_idle _ hlaunches, hvolumes,
    newVolumes]

theorem isOwned_of_mem_newMachines (hhonest : Honest (journal ++ a.entries)) {m : Machine}
    (hm : m ∈ a.newMachines) : m.isOwned = true := by
  obtain ⟨x, hx, hmachine⟩ := List.mem_filterMap.1 hm
  obtain ⟨answered, hvalue, rfl⟩ := Attempt.machine?_eq_some.1 hmachine
  have hentry := Errand.entry_mem (e := Errand.launching) hx (Attempt.value?_eq_some.1 hvalue)
  obtain ⟨before, hbefore⟩ := hhonest.of_mem
    (List.mem_append_right _ (List.mem_append_left _ hentry))
  obtain ⟨role, -, hprovision⟩ := ClusterDescriptor.mem_provisions a.provisions_eq
    (ClusterDescriptor.mem_requests.1 (a.launches_served.request_mem hx))
  obtain ⟨env, params, -, hmanaged, hrequest⟩ := ClusterDescriptor.provision_eq_launch hprovision
  have hparams : x.request.params = params := congrArg LaunchRequest.params hrequest
  obtain ⟨-, -, hkept, hprovisioned, -⟩ := hbefore
  rw [hparams, hmanaged] at hkept
  simp only [Machine.isOwned]
  rw [hkept, hprovisioned]
  rfl

/-- The owned members afterwards are those that were there and the launched machines. -/
theorem owns_iff (hhonest : Honest (journal ++ a.entries))
    (hnames : (d.instances.map Prod.fst).Nodup) {key id : String} :
    a.descriptor.Owns key id ↔
      d.Owns key id ∨ ∃ m ∈ a.newMachines, m.name = key ∧ m.id = id := by
  constructor
  · rintro ⟨m, hm, howned, hid⟩
    rcases (a.find?_members_iff hnames).1 hm with hold | ⟨hnew, hname⟩
    · exact .inl ⟨m, hold, howned, hid⟩
    · rcases a.mem_machines.1 hnew with hexternal | ⟨x, hx, hmachine⟩
      · obtain ⟨role, -, hprovision⟩ :=
          ClusterDescriptor.mem_provisions a.provisions_eq hexternal
        obtain ⟨env, params, -, -, hmachine⟩ := ClusterDescriptor.provision_eq_external hprovision
        rw [Machine.isOwned, (External.machine?_eq_some hmachine).2.2] at howned
        cases howned
      · exact .inr ⟨m, List.mem_filterMap.2 ⟨x, hx, hmachine⟩, hname, hid⟩
  · rintro (⟨m, hold, howned, hid⟩ | ⟨m, hnew, hname, hid⟩)
    · exact ⟨m, a.find?_members_of_find? hold, howned, hid⟩
    · obtain ⟨x, hx, hmachine⟩ := List.mem_filterMap.1 hnew
      have hmem := a.mem_machines.2 (.inr ⟨x, hx, hmachine⟩)
      exact ⟨m, (a.find?_members_iff hnames).2 (.inr ⟨hmem, hname⟩),
        a.isOwned_of_mem_newMachines hhonest hnew, hid⟩

end Allocating

namespace ClusterDescriptor.Tracks

variable {d : ClusterDescriptor} {cluster : String} {journal : List JournalEntry}

/-- What an allocation has brought is tracked. -/
theorem allocated (h : d.Tracks journal) (a : Allocating cluster d)
    (hhonest : Honest (journal ++ a.entries)) (hnames : (d.instances.map Prod.fst).Nodup) :
    a.descriptor.Tracks (journal ++ a.entries) where
  machines := by
    intro id
    rw [a.live_machines, List.mem_append, h.machines, List.mem_map]
    simp only [a.owns_iff hhonest hnames, exists_or]
    refine or_congr_right ⟨?_, ?_⟩
    · rintro ⟨m, hm, hid⟩
      exact ⟨m.name, m, hm, rfl, hid⟩
    · rintro ⟨key, m, hm, -, hid⟩
      exact ⟨m, hm, hid⟩
  distinct := by
    have hnodup := hhonest.nodup_machines
    rw [a.live_machines, List.nodup_append] at hnodup
    obtain ⟨-, hnew, hdisjoint⟩ := hnodup
    intro key key' id hkey hkey'
    rcases (a.owns_iff hhonest hnames).1 hkey with hold | ⟨m, hm, rfl, rfl⟩
    · rcases (a.owns_iff hhonest hnames).1 hkey' with hold' | ⟨m', hm', rfl, rfl⟩
      · exact h.distinct key key' id hold hold'
      · have hlive := (h.machines m'.id).2 ⟨key, hold⟩
        exact absurd rfl (hdisjoint _ hlive _ (List.mem_map_of_mem hm'))
    · rcases (a.owns_iff hhonest hnames).1 hkey' with hold' | ⟨m', hm', rfl, hid⟩
      · have hlive := (h.machines m.id).2 ⟨key', hold'⟩
        exact absurd rfl (hdisjoint _ hlive _ (List.mem_map_of_mem hm))
      · rw [List.inj_on_of_nodup_map hnew hm' hm hid]
  volumes := by
    rw [a.live_volumes]
    exact (h.volumes.append_right _).trans a.sharedStorage_perm.symm

/-- A machine that has been started stays the machine it was. -/
theorem owns_started_iff (hd : d.Consistent cluster) (x : Starting d)
    (hhonest : Honest (journal ++ x.entries)) {key id : String} :
    x.descriptor.Owns key id ↔ d.Owns key id := by
  have hmember : ∀ y ∈ x.attempts, d.members.find? y.request.name = some y.request :=
    fun y hy => hd.find?_of_stoppable (x.served.request_mem hy)
  have hsame : ∀ y ∈ x.attempts, ∀ m, y.value? = some m →
      m.id = y.request.id ∧ m.isOwned = y.request.isOwned := by
    intro y hy m hm
    have hentry := Errand.entry_mem (e := Errand.starting) hy (Attempt.value?_eq_some.1 hm)
    obtain ⟨before, hbefore⟩ := hhonest.of_mem (List.mem_append_right _ hentry)
    obtain ⟨hid, -, -, hmanaged, hprovisioned⟩ := hbefore
    exact ⟨hid, by rw [Machine.isOwned, Machine.isOwned, hmanaged, hprovisioned]⟩
  constructor
  · rintro ⟨m, hm, howned, rfl⟩
    rcases x.find?_members hm with hold | ⟨y, hy, rfl, hvalue⟩
    · exact ⟨m, hold, howned, rfl⟩
    · obtain ⟨hid, hkept⟩ := hsame y hy m hvalue
      exact ⟨y.request, hmember y hy, hkept ▸ howned, hid.symm⟩
  · rintro ⟨m, hm, howned, rfl⟩
    have hcontains := x.contains_members.2 (.inr (Dict.contains_iff.2 ⟨m, hm⟩))
    obtain ⟨m', hm'⟩ := Dict.contains_iff.1 hcontains
    rcases x.find?_members hm' with hold | ⟨y, hy, rfl, hvalue⟩
    · rw [hm, Option.some.injEq] at hold
      exact ⟨m', hm', hold ▸ howned, by rw [hold]⟩
    · obtain ⟨hid, hkept⟩ := hsame y hy m' hvalue
      rw [hmember y hy, Option.some.injEq] at hm
      exact ⟨m', hm', by rw [hkept, hm]; exact howned, by rw [hid, hm]⟩

/-- What starts have brought back is tracked. -/
theorem started (h : d.Tracks journal) (hd : d.Consistent cluster) (x : Starting d)
    {steps : List JournalEntry} (hinert : ∀ e ∈ steps, e.call.isInert = true)
    (hhonest : Honest (journal ++ x.entries)) :
    x.descriptor.Tracks (journal ++ (x.entries ++ steps)) := by
  refine h.of_same (fun key id => owns_started_iff hd x hhonest) rfl fun e he => ?_
  rcases List.mem_append.1 he with he | he
  · obtain ⟨y, -, r, -, rfl⟩ := Errand.mem_flatMap_entries he
    exact ⟨⟨rfl, rfl⟩, rfl, rfl⟩
  · exact Ledger.idle_of_isInert (hinert e he)

end ClusterDescriptor.Tracks

namespace Cleaning

variable {d : ClusterDescriptor} {cluster : String} (c : Cleaning d) {journal : List JournalEntry}

def terminatedId? (x : Attempt Machine Unit) : Option String := x.value?.map fun _ => x.request.id

def destroyedVolume? (x : Attempt Volume Unit) : Option Volume := x.value?.map fun _ => x.request

theorem live_machines : Ledger.machines.live (journal ++ c.entries) =
    (Ledger.machines.live journal).filter fun id =>
      id ∉ c.terminations.filterMap terminatedId? := by
  have hterminations := Ledger.machines.foldl_losses Errand.terminating terminatedId?
    (fun x r hx => by
      rcases r with e | u <;>
        simp [Ledger.machines, Errand.terminating, terminatedId?, Attempt.value?, hx])
    (fun x hx => by simp [terminatedId?, Attempt.value?, hx])
    c.terminations (Ledger.machines.live journal)
  have hdestructions : ∀ e ∈ c.destructions.flatMap Errand.destroying.entries,
      Ledger.machines.gained e.call = none ∧ Ledger.machines.lost e.call = none := by
    intro e he
    obtain ⟨x, -, r, -, rfl⟩ := Errand.mem_flatMap_entries he
    exact ⟨rfl, rfl⟩
  rw [Ledger.live_append, entries, List.foldl_append, hterminations,
    Ledger.foldl_of_idle _ hdestructions]

theorem live_volumes : Ledger.volumes.live (journal ++ c.entries) =
    (Ledger.volumes.live journal).filter fun v =>
      v ∉ c.destructions.filterMap destroyedVolume? := by
  have hterminations : ∀ e ∈ c.terminations.flatMap Errand.terminating.entries,
      Ledger.volumes.gained e.call = none ∧ Ledger.volumes.lost e.call = none := by
    intro e he
    obtain ⟨x, -, r, -, rfl⟩ := Errand.mem_flatMap_entries he
    exact ⟨rfl, rfl⟩
  have hdestructions := Ledger.volumes.foldl_losses Errand.destroying destroyedVolume?
    (fun x r hx => by
      rcases r with e | u <;>
        simp [Ledger.volumes, Errand.destroying, destroyedVolume?, Attempt.value?, hx])
    (fun x hx => by simp [destroyedVolume?, Attempt.value?, hx])
    c.destructions (Ledger.volumes.live journal)
  rw [Ledger.live_append, entries, List.foldl_append, Ledger.foldl_of_idle _ hterminations,
    hdestructions]

theorem mem_terminatedIds {id : String} : id ∈ c.terminations.filterMap terminatedId? ↔
    ∃ x ∈ c.terminations, x.request.id = id ∧ x.value?.isSome = true := by
  rw [List.mem_filterMap]
  refine exists_congr fun x => and_congr_right fun _ => ?_
  rw [terminatedId?]
  cases x.value? <;> simp

theorem mem_destroyedVolumes {v : Volume} : v ∈ c.destructions.filterMap destroyedVolume? ↔
    ∃ x ∈ c.destructions, x.request = v ∧ x.value?.isSome = true := by
  rw [List.mem_filterMap]
  refine exists_congr fun x => and_congr_right fun _ => ?_
  rw [destroyedVolume?]
  cases x.value? <;> simp

theorem journal_grows (late : Bool) (b : Books) :
    b.journal <+: (c.settle cluster late (b.enter c.entries)).journal := by
  rw [settle]
  split
  · simp
  · simp

end Cleaning

namespace ClusterDescriptor.Tracks

variable {d : ClusterDescriptor} {cluster : String} {journal : List JournalEntry}

theorem owns_left_iff (h : d.Tracks journal) (hd : d.Consistent cluster) (c : Cleaning d)
    {key id : String} : c.left.Owns key id ↔
      d.Owns key id ∧ id ∉ c.terminations.filterMap Cleaning.terminatedId? := by
  have hmember : ∀ x ∈ c.terminations, d.members.find? x.request.name = some x.request ∧
      x.request.isOwned = true := by
    intro x hx
    have howned := c.terminations_served.request_mem hx
    exact ⟨hd.find?_of_owned howned, (List.mem_filter.1 howned).2⟩
  rw [c.mem_terminatedIds]
  constructor
  · rintro ⟨m, hm, howned, rfl⟩
    obtain ⟨hold, -, hkept⟩ := c.find?_members_left.1 hm
    refine ⟨⟨m, hold, howned, rfl⟩, ?_⟩
    rintro ⟨x, hx, hid, hvalue⟩
    have hkey := h.distinct x.request.name key m.id
      ⟨x.request, (hmember x hx).1, (hmember x hx).2, hid⟩ ⟨m, hold, howned, rfl⟩
    exact hkept ⟨x, hx, hkey, hvalue⟩
  · rintro ⟨⟨m, hm, howned, rfl⟩, hkept⟩
    refine ⟨m, c.find?_members_left.2 ⟨hm, howned, ?_⟩, howned, rfl⟩
    rintro ⟨x, hx, rfl, hvalue⟩
    rw [(hmember x hx).1, Option.some.injEq] at hm
    exact hkept ⟨x, hx, by rw [hm], hvalue⟩

theorem sharedStorage_left_eq (c : Cleaning d) (hids : (d.sharedStorage.map Volume.id).Nodup) :
    c.left.sharedStorage = d.sharedStorage.filter fun v =>
      v ∉ c.destructions.filterMap Cleaning.destroyedVolume? := by
  change d.sharedStorage.filter (fun v => !(succeededNames c.destroyed).contains v.id) = _
  refine List.filter_congr fun v hv => ?_
  rw [Bool.eq_iff_iff, decide_eq_true_iff, c.mem_destroyedVolumes, Bool.not_eq_true',
    ← Bool.not_eq_true, List.contains_iff_mem, c.mem_destroyed]
  -- volumes with one id are one volume, so that going by the id is right
  refine not_congr (exists_congr fun x => and_congr_right fun hx => and_congr_left fun _ => ?_)
  constructor
  · exact List.inj_on_of_nodup_map hids (c.destructions_served.request_mem hx) hv
  · rintro rfl
    rfl

/-- What a cleanup has left is tracked. -/
theorem cleaned (h : d.Tracks journal) (hd : d.Consistent cluster) (c : Cleaning d)
    (hids : ((Ledger.volumes.live journal).map Volume.id).Nodup) :
    c.left.Tracks (journal ++ c.entries) where
  machines := by
    intro id
    rw [c.live_machines, List.mem_filter, h.machines, decide_eq_true_iff]
    simp only [h.owns_left_iff hd, exists_and_right]
  distinct := by
    intro key key' id hkey hkey'
    exact h.distinct key key' id ((h.owns_left_iff hd c).1 hkey).1
      ((h.owns_left_iff hd c).1 hkey').1
  volumes := by
    rw [c.live_volumes, sharedStorage_left_eq c ((h.volumes.map Volume.id).nodup hids)]
    exact h.volumes.filter _

theorem nodup_ownedMachines (h : d.Tracks journal) : (d.ownedMachines.map Machine.id).Nodup := by
  have hinj : ∀ a ∈ d.ownedEntries, ∀ b ∈ d.ownedEntries, a.2.id = b.2.id → a = b := by
    intro a ha b hb hid
    obtain ⟨hfindA, hownedA⟩ := mem_ownedEntries.1 ha
    obtain ⟨hfindB, hownedB⟩ := mem_ownedEntries.1 hb
    have hkey := h.distinct a.1 b.1 b.2.id ⟨a.2, hfindA, hownedA, hid⟩ ⟨b.2, hfindB, hownedB, rfl⟩
    exact List.inj_on_of_nodup_map d.nodup_ownedEntries ha hb hkey
  rw [← d.map_snd_ownedEntries, List.map_map]
  exact List.Nodup.map_on hinj (d.nodup_ownedEntries.of_map _)

theorem ownedMachines_perm (h : d.Tracks journal) (hlive : (Ledger.machines.live journal).Nodup) :
    (Ledger.machines.live journal).Perm (d.ownedMachines.map Machine.id) := by
  rw [List.perm_ext_iff_of_nodup hlive h.nodup_ownedMachines]
  intro id
  rw [h.machines, List.mem_map]
  constructor
  · rintro ⟨key, m, hm, howned, hid⟩
    exact ⟨m, mem_ownedMachines.2 ⟨key, hm, howned⟩, hid⟩
  · rintro ⟨m, hm, hid⟩
    obtain ⟨key, hkey, howned⟩ := mem_ownedMachines.1 hm
    exact ⟨key, m, hkey, howned, hid⟩

theorem of_empty_iff (hmembers : d.members.isEmpty = true) (hvolumes : d.sharedStorage = []) :
    d.Tracks journal ↔
      Ledger.machines.live journal = [] ∧ Ledger.volumes.live journal = [] := by
  have hnone : ∀ key id, ¬ d.Owns key id := by
    rintro key id ⟨m, hm, -⟩
    rw [Dict.isEmpty_iff.1 hmembers key] at hm
    cases hm
  constructor
  · intro h
    refine ⟨?_, ?_⟩
    · refine List.eq_nil_iff_forall_not_mem.2 fun id hid => ?_
      obtain ⟨key, hkey⟩ := (h.machines id).1 hid
      exact hnone key id hkey
    · have hperm := h.volumes
      rw [hvolumes] at hperm
      exact hperm.eq_nil
  · rintro ⟨hmachines, hlive⟩
    refine ⟨fun id => ?_, fun key _ id hkey => absurd hkey (hnone key id), ?_⟩
    · rw [hmachines]
      refine iff_of_false (List.not_mem_nil) ?_
      rintro ⟨key, hkey⟩
      exact hnone key id hkey
    · rw [hlive, hvolumes]

end ClusterDescriptor.Tracks

/-! ## Every run -/

namespace Books

def ownedIds (b : Books) (cluster : String) : List String :=
  (b.find? cluster).elim [] fun d => d.ownedMachines.map Machine.id

def storedVolumes (b : Books) (cluster : String) : List Volume :=
  (b.find? cluster).elim [] ClusterDescriptor.sharedStorage

/-- The machines and volumes that there are according to the journal are those of the stored
descriptor of a cluster; without a descriptor there are none. -/
def Tracked (b : Books) (cluster : String) : Prop :=
  match b.find? cluster with
  | some d => d.Tracks b.journal
  | none => Ledger.machines.live b.journal = [] ∧ Ledger.volumes.live b.journal = []

variable {b : Books} {cluster : String}

theorem Tracked.descriptor {d : ClusterDescriptor} (h : b.Tracked cluster)
    (hd : b.find? cluster = some d) : d.Tracks b.journal := by
  rw [Tracked, hd] at h
  exact h

theorem Tracked.enter {entries : List JournalEntry} (h : b.Tracked cluster)
    (hinert : ∀ e ∈ entries, e.call.isInert = true) : (b.enter entries).Tracked cluster := by
  have hidle := fun e he => Ledger.idle_of_isInert (hinert e he)
  rw [Tracked, find?_enter, journal_enter]
  rw [Tracked] at h
  cases hd : b.find? cluster with
  | some d =>
    rw [hd] at h
    exact h.of_same (fun _ _ => Iff.rfl) rfl hidle
  | none =>
    rw [hd] at h
    refine ⟨?_, ?_⟩
    · rw [Ledger.live_append, Ledger.foldl_of_idle _ fun e he => (hidle e he).1]
      exact h.1
    · rw [Ledger.live_append, Ledger.foldl_of_idle _ fun e he => (hidle e he).2]
      exact h.2

theorem Tracked.put {late : Bool} {d : ClusterDescriptor} (hname : d.clusterName = cluster)
    (h : d.Tracks b.journal) : (b.put late d).Tracked cluster := by
  rw [Tracked, find?_put, if_pos hname, journal_put]
  refine h.of_same (fun _ _ => Iff.rfl) rfl fun e he => ?_
  rw [List.mem_singleton] at he
  rw [he]
  exact ⟨⟨rfl, rfl⟩, rfl, rfl⟩

theorem Tracked.drop {late : Bool} (hmachines : Ledger.machines.live b.journal = [])
    (hvolumes : Ledger.volumes.live b.journal = []) : (b.drop late cluster).Tracked cluster := by
  rw [Tracked, find?_drop, if_pos rfl, journal_drop]
  refine ⟨?_, ?_⟩
  · rw [Ledger.live_append, hmachines]
    rfl
  · rw [Ledger.live_append, hvolumes]
    rfl

/-- What a cleanup leaves of a cluster is stored, or forgotten if it is nothing. -/
theorem Tracked.settle {late : Bool} {d : ClusterDescriptor} {c : Cleaning d}
    (hname : d.clusterName = cluster) (h : c.left.Tracks b.journal) :
    (c.settle cluster late b).Tracked cluster := by
  rw [Cleaning.settle]
  by_cases hempty : c.left.remaining.isEmpty
  · obtain ⟨hmembers, hvolumes⟩ := ClusterDescriptor.remaining_isEmpty.1 hempty
    have hnothing := (ClusterDescriptor.Tracks.of_empty_iff hmembers hvolumes).1 h
    rw [if_pos hempty]
    exact .drop hnothing.1 hnothing.2
  · rw [if_neg hempty]
    exact .put hname ⟨h.machines, h.distinct, h.volumes⟩

theorem Tracked.ownedIds_perm (h : b.Tracked cluster)
    (hlive : (Ledger.machines.live b.journal).Nodup) :
    (Ledger.machines.live b.journal).Perm (b.ownedIds cluster) := by
  rw [Tracked] at h
  rw [ownedIds]
  cases hd : b.find? cluster with
  | some d =>
    rw [hd] at h
    exact h.ownedMachines_perm hlive
  | none =>
    rw [hd] at h
    exact .of_eq h.1

theorem Tracked.storedVolumes_perm (h : b.Tracked cluster) :
    (Ledger.volumes.live b.journal).Perm (b.storedVolumes cluster) := by
  rw [Tracked] at h
  rw [storedVolumes]
  cases hd : b.find? cluster with
  | some d =>
    rw [hd] at h
    exact h.volumes
  | none =>
    rw [hd] at h
    exact .of_eq h.2

/-- A descriptor that may be replaced, or none, says that there is nothing. -/
theorem Tracked.nothing_of_vacant (h : b.Tracked cluster)
    (hvacant : ∀ d, b.find? cluster = some d → d.isReplaceable = true) :
    Ledger.machines.live b.journal = [] ∧ Ledger.volumes.live b.journal = [] := by
  rw [Tracked] at h
  cases hd : b.find? cluster with
  | some d =>
    rw [hd] at h
    have hreplaceable := hvacant d hd
    rw [ClusterDescriptor.isReplaceable, Bool.and_eq_true, Bool.and_eq_true] at hreplaceable
    obtain ⟨⟨-, hmembers⟩, hvolumes⟩ := hreplaceable
    exact (ClusterDescriptor.Tracks.of_empty_iff hmembers (List.isEmpty_iff.1 hvolumes)).1 h
  | none =>
    rw [hd] at h
    exact h

end Books

/-- A change leaves the stored descriptor of its cluster with all that there is. -/
theorem Change.tracked {cluster : String} {b b' : Books} (h : Change cluster b b')
    (hall : b.Consistent) (htracked : b.Tracked cluster) (hhonest : Honest b'.journal)
    (hdistinct : DistinctNames b'.journal) : b'.Tracked cluster := by
  cases h with
  | noted inert => exact htracked.enter inert
  | @configured _ _ plan names now _ valid vacant planned expanded =>
    have hnothing := htracked.nothing_of_vacant vacant
    have hempty : (plan.descriptor cluster names now).Tracks b.journal :=
      (ClusterDescriptor.Tracks.of_empty_iff rfl rfl).2 hnothing
    exact .put rfl hempty
  | @allocated d _ late stored allowed a =>
    have hd := hall _ _ stored
    have hnames := hdistinct.of_put
    rw [Books.journal_put, Books.journal_enter] at hhonest
    have hnew := (htracked.descriptor stored).allocated a
      (hhonest.of_longer (List.prefix_append _ _)) hnames
    exact Books.Tracked.put (b := b.enter a.entries) hd.clusterName hnew
  | installed stored allowed =>
    have hold := htracked.descriptor stored
    exact .put (hall _ _ stored).clusterName ⟨hold.machines, hold.distinct, hold.volumes⟩
  | stopped stored allowed =>
    have hold := htracked.descriptor stored
    exact .put (hall _ _ stored).clusterName ⟨hold.machines, hold.distinct, hold.volumes⟩
  | @woken _ steps _ stored allowed x inert failed =>
    have hd := hall _ _ stored
    have hstarted := (htracked.descriptor stored).started hd x inert
      (hhonest.of_longer (by simp))
    exact Books.Tracked.put (b := b.enter (x.entries ++ steps)) hd.clusterName hstarted
  | @started _ steps _ stored allowed x inert succeeded =>
    have hd := hall _ _ stored
    have hstarted := (htracked.descriptor stored).started hd x inert
      (hhonest.of_longer (by simp))
    refine Books.Tracked.put (b := b.enter (x.entries ++ steps)) hd.clusterName ?_
    exact ⟨hstarted.machines, hstarted.distinct, hstarted.volumes⟩
  | @cleaned d late stored c =>
    have hd := hall _ _ stored
    have hbefore : Honest b.journal := hhonest.of_longer (c.journal_grows late b)
    have hleft := (htracked.descriptor stored).cleaned hd c hbefore.nodup_volumes
    exact Books.Tracked.settle (b := b.enter c.entries) hd.clusterName hleft
  | abandoned stored volume unlisted =>
    obtain ⟨env, henv, hname⟩ := (hall _ _ stored).volumes _ volume
    exact absurd hname (unlisted env henv)

/-- After every run for one cluster in which answers were honest and instance names distinct, the
stored descriptor tracks what there is. -/
theorem Books.tracked_after (turns : List Turn) {cluster : String}
    (hcluster : ∀ t ∈ turns, t.cluster = cluster) (hhonest : Honest (Books.after turns).journal)
    (hdistinct : DistinctNames (Books.after turns).journal) :
    (Books.after turns).Tracked cluster := by
  let P : Books → Prop := fun b =>
    Honest b.journal → DistinctNames b.journal → b.Consistent ∧ b.Tracked cluster
  have hblank : P blank := by
    intro _ _
    refine ⟨fun _ _ hd => ?_, rfl, rfl⟩
    cases hd
  have hstep : ∀ t ∈ turns, ∀ b b', b.Named → P b → Change t.cluster b b' → P b' := by
    intro t ht b b' hnamed hb hchange hhonest hdistinct
    rw [hcluster t ht] at hchange
    have hgrows := (hchange.extendsBooks hnamed).journal_grows
    obtain ⟨hall, htracked⟩ := hb (hhonest.of_longer hgrows) (hdistinct.of_longer hgrows)
    exact ⟨hchange.consistent hall hhonest.faithful,
      hchange.tracked hall htracked hhonest hdistinct⟩
  exact ((after_induction turns hblank hstep).2 hhonest hdistinct).2

/-- No machine and no volume is ever lost track of or recorded twice: whatever invocations have run
for a cluster and whatever has failed in them, the stored descriptor lists the machines that have
been launched and not terminated since, and the volumes that have been created and not destroyed
since, each of them once. -/
theorem stored_descriptor_tracks (turns : List Turn) {cluster : String}
    (hcluster : ∀ t ∈ turns, t.cluster = cluster) (hhonest : Honest (Books.after turns).journal)
    (hdistinct : DistinctNames (Books.after turns).journal) :
    (Ledger.machines.live (Books.after turns).journal).Perm ((Books.after turns).ownedIds cluster) ∧
      ((Books.after turns).ownedIds cluster).Nodup ∧
      (Ledger.volumes.live (Books.after turns).journal).Perm
        ((Books.after turns).storedVolumes cluster) ∧
      (((Books.after turns).storedVolumes cluster).map Volume.id).Nodup := by
  have htracked := Books.tracked_after turns hcluster hhonest hdistinct
  have hmachines := htracked.ownedIds_perm hhonest.nodup_machines
  have hvolumes := htracked.storedVolumes_perm
  exact ⟨hmachines, hmachines.nodup hhonest.nodup_machines, hvolumes,
    (hvolumes.map Volume.id).nodup hhonest.nodup_volumes⟩

/-- Two machines are terminated and one volume is destroyed, of those that it took three allocations
to get. -/
theorem sample_descriptor_tracks :
    let b := Books.after (Sample.setbacks Sample.surroundings)
    Ledger.machines.live b.journal = ["1", "10"] ∧
      (Ledger.volumes.live b.journal).map Volume.id = ["2", "21"] ∧
      (Ledger.machines.live b.journal).Perm (b.ownedIds "c") ∧ (b.ownedIds "c").Nodup ∧
      (Ledger.volumes.live b.journal).Perm (b.storedVolumes "c") ∧
      ((b.storedVolumes "c").map Volume.id).Nodup := by
  let turns := Sample.setbacks Sample.surroundings
  have hplayed : (honestFrom [] (Books.after turns).journal,
      (Books.after turns).journal.filterMap fun e => e.call.storedNames?,
      Ledger.machines.live (Books.after turns).journal,
      (Ledger.volumes.live (Books.after turns).journal).map Volume.id) =
      (true, List.replicate 5 ["db_0", "db_1", "db_2", "db_3"], ["1", "10"], ["2", "21"]) := by
    cbv
  simp only [Prod.mk.injEq] at hplayed
  obtain ⟨hfrom, hnames, hmachines, hvolumes⟩ := hplayed
  have hcluster : ∀ t ∈ turns, t.cluster = "c" := by decide
  have hdistinct : DistinctNames (Books.after turns).journal := by
    rw [DistinctNames, hnames]
    decide
  exact ⟨hmachines, hvolumes,
    stored_descriptor_tracks turns hcluster (honest_iff.2 hfrom) hdistinct⟩

end BenchCluster
