import BenchCluster.Proofs.Descriptor.Consistent

/-! # Stored volumes can be told apart by their ids

As long as no two volumes are created with one id, the volumes of every stored descriptor are among
those that have been created, and have ids of their own.
-/

namespace BenchCluster

def createdVolumes (journal : List JournalEntry) : List Volume :=
  journal.filterMap fun x => Ledger.volumes.gained x.call

/-- No two volumes have been created with the same id. -/
def DistinctVolumes (journal : List JournalEntry) : Prop :=
  ((createdVolumes journal).map Volume.id).Nodup

theorem createdVolumes_append (journal more : List JournalEntry) :
    createdVolumes (journal ++ more) = createdVolumes journal ++ createdVolumes more :=
  List.filterMap_append

theorem DistinctVolumes.of_longer {journal longer : List JournalEntry} (h : DistinctVolumes longer)
    (hp : journal <+: longer) : DistinctVolumes journal :=
  h.sublist ((hp.sublist.filterMap _).map Volume.id)

namespace ClusterDescriptor

/-- The volumes of a descriptor have been created, and have ids of their own. -/
structure Shelved (d : ClusterDescriptor) (journal : List JournalEntry) : Prop where
  created : ∀ v ∈ d.sharedStorage, v ∈ createdVolumes journal
  distinct : (d.sharedStorage.map Volume.id).Nodup

namespace Shelved

variable {d after : ClusterDescriptor} {cluster : String} {journal longer : List JournalEntry}

theorem of_longer (h : d.Shelved journal) (hp : journal <+: longer) : d.Shelved longer where
  created := fun v hv => (hp.filterMap _).subset (h.created v hv)
  distinct := h.distinct

theorem of_sublist (h : d.Shelved journal)
    (hsub : after.sharedStorage.Sublist d.sharedStorage) : after.Shelved journal where
  created := fun v hv => h.created v (hsub.subset hv)
  distinct := h.distinct.sublist (hsub.map Volume.id)

theorem of_nil (h : d.sharedStorage = []) : d.Shelved journal where
  created := by simp [h]
  distinct := by simp [h]

end Shelved

end ClusterDescriptor

theorem Allocating.createdVolumes_entries {cluster : String} {d : ClusterDescriptor}
    (a : Allocating cluster d) : createdVolumes a.entries = a.newVolumes := by
  have hlaunches := Errand.launching.filterMap_entries Ledger.volumes.gained a.launches
  have hvolumes := Errand.creating.filterMap_entries Ledger.volumes.gained a.volumes
  have hnone : (a.launches.filterMap fun x => x.answer.bind fun r =>
      Ledger.volumes.gained (Errand.launching.call x.environment x.request r)) = [] := by
    refine List.filterMap_eq_nil_iff.2 fun x _ => ?_
    cases x.answer <;> rfl
  rw [createdVolumes, entries, List.filterMap_append, hlaunches, hvolumes, hnone, List.nil_append,
    newVolumes]
  refine List.filterMap_congr fun x _ => ?_
  rw [Attempt.value?]
  rcases x.answer with _ | e | v
  · rfl
  · rfl
  · rfl

theorem ClusterDescriptor.Shelved.allocated {d : ClusterDescriptor} {cluster : String}
    {journal : List JournalEntry} (h : d.Shelved journal) (a : Allocating cluster d)
    (hdistinct : DistinctVolumes (journal ++ a.entries)) :
    a.descriptor.Shelved (journal ++ a.entries) where
  created := by
    intro v hv
    rw [createdVolumes_append, a.createdVolumes_entries, List.mem_append]
    rw [a.sharedStorage_perm.mem_iff, List.mem_append] at hv
    exact hv.imp (h.created v) id
  distinct := by
    rw [DistinctVolumes, createdVolumes_append, a.createdVolumes_entries, List.map_append,
      List.nodup_append] at hdistinct
    obtain ⟨-, hnew, hapart⟩ := hdistinct
    refine (a.sharedStorage_perm.map Volume.id).symm.nodup ?_
    rw [List.map_append, List.nodup_append]
    refine ⟨h.distinct, hnew, fun id hid id' hid' => ?_⟩
    obtain ⟨v, hv, rfl⟩ := List.mem_map.1 hid
    exact hapart _ (List.mem_map_of_mem (h.created v hv)) _ hid'

namespace Books

def Shelved (b : Books) : Prop := b.Every fun _ d => d.Shelved b.journal

namespace Shelved

variable {b : Books}

theorem enter (h : b.Shelved) (entries : List JournalEntry) : (b.enter entries).Shelved :=
  fun cluster d hd => (h cluster d hd).of_longer (List.prefix_append _ _)

theorem put (h : b.Shelved) (late : Bool) {d : ClusterDescriptor} (hd : d.Shelved b.journal) :
    (b.put late d).Shelved :=
  Every.put (fun cluster e he => (h cluster e he).of_longer (List.prefix_append _ _)) late
    (hd.of_longer (List.prefix_append _ _))

theorem drop (h : b.Shelved) (late : Bool) (cluster : String) : (b.drop late cluster).Shelved :=
  Every.drop (fun other e he => (h other e he).of_longer (List.prefix_append _ _)) late cluster

end Shelved

end Books

/-- A change keeps volumes that can be told apart. -/
theorem Change.shelved {cluster : String} {b b' : Books} (h : Change cluster b b')
    (hall : b.Shelved) (hdistinct : DistinctVolumes b'.journal) : b'.Shelved := by
  cases h with
  | noted inert => exact hall.enter _
  | configured valid vacant planned expanded => exact hall.put _ (.of_nil rfl)
  | allocated stored allowed a =>
    exact (hall.enter a.entries).put _
      ((hall _ _ stored).allocated a (hdistinct.of_longer (List.prefix_append _ _)))
  | installed stored allowed => exact hall.put _ ((hall _ _ stored).of_sublist (.refl _))
  | stopped stored allowed => exact hall.put _ ((hall _ _ stored).of_sublist (.refl _))
  | woken stored allowed x inert failed =>
    exact (hall.enter _).put _ ((hall.enter _ _ _ stored).of_sublist (.refl _))
  | started stored allowed x inert succeeded =>
    exact (hall.enter _).put _ ((hall.enter _ _ _ stored).of_sublist (.refl _))
  | cleaned stored c =>
    rw [Cleaning.settle]
    split
    · exact (hall.enter _).drop _ _
    · exact (hall.enter _).put _ ((hall.enter _ _ _ stored).of_sublist List.filter_sublist)
  | abandoned stored volume unlisted => exact hall.enter _

end BenchCluster
