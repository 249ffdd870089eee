import BenchCluster.Proofs.Journal.Clean

/-! # The descriptor after a cleanup

What is left of a cluster are the owned machines whose termination has not succeeded, and the
volumes none of whose namesakes in id has been destroyed.
-/

namespace BenchCluster

namespace Errand.Served

variable {ρ : Type} {e : Errand ρ Unit} {environments : List Environment} {requests : List ρ}
  {attempts : List (Attempt ρ Unit)} {results : List (JobResult Unit)}

theorem mem_succeededNames (h : e.Served environments requests attempts results) {name : String} :
    name ∈ succeededNames results ↔
      ∃ x ∈ attempts, e.name x.request = name ∧ x.value?.isSome = true := by
  have hperm := h.filterMap_perm fun r => if r.2.isOk then some r.1 else none
  change name ∈ results.filterMap _ ↔ _
  rw [hperm.mem_iff, List.mem_filterMap]
  refine exists_congr fun x => and_congr_right fun _ => ?_
  rw [report, x.isOk_result]
  cases x.value? <;> simp

end Errand.Served

namespace ClusterDescriptor

def ownedEntries (d : ClusterDescriptor) : List (String × Machine) :=
  d.members.entries.filter fun e => e.2.isOwned

theorem map_snd_ownedEntries (d : ClusterDescriptor) :
    d.ownedEntries.map Prod.snd = d.ownedMachines := by
  rw [ownedMachines, Dict.values, List.filter_map]
  rfl

theorem nodup_ownedEntries (d : ClusterDescriptor) : (d.ownedEntries.map Prod.fst).Nodup :=
  d.members.nodup_keys.sublist (List.filter_sublist.map Prod.fst)

theorem mem_ownedEntries {d : ClusterDescriptor} {key : String} {m : Machine} :
    (key, m) ∈ d.ownedEntries ↔ d.members.find? key = some m ∧ m.isOwned = true := by
  rw [ownedEntries, List.mem_filter, Dict.find?_eq_some_iff]

theorem mem_ownedMachines {d : ClusterDescriptor} {m : Machine} :
    m ∈ d.ownedMachines ↔ ∃ key, d.members.find? key = some m ∧ m.isOwned = true := by
  rw [ownedMachines, List.mem_filter, Dict.mem_values_iff]
  simp

theorem remaining_isEmpty {d : ClusterDescriptor} :
    d.remaining.isEmpty = true ↔ d.members.isEmpty = true ∧ d.sharedStorage = [] := by
  rw [remaining, List.isEmpty_iff, List.append_eq_nil_iff, Dict.isEmpty, List.isEmpty_iff,
    Dict.keys, List.map_eq_nil_iff, List.map_eq_nil_iff]

end ClusterDescriptor

namespace Cleaning

variable {d : ClusterDescriptor} (c : Cleaning d)

theorem mem_terminated {key : String} : key ∈ succeededNames c.terminated ↔
    ∃ x ∈ c.terminations, x.request.name = key ∧ x.value?.isSome = true :=
  c.terminations_served.mem_succeededNames

theorem mem_destroyed {id : String} : id ∈ succeededNames c.destroyed ↔
    ∃ x ∈ c.destructions, x.request.id = id ∧ x.value?.isSome = true :=
  c.destructions_served.mem_succeededNames

/-- Members that are left are owned, and no termination under their names has succeeded. -/
theorem find?_members_left {key : String} {m : Machine} : c.left.members.find? key = some m ↔
    d.members.find? key = some m ∧ m.isOwned = true ∧
      ¬ ∃ x ∈ c.terminations, x.request.name = key ∧ x.value?.isSome = true := by
  change (Dict.filter _ fun _ m => m.isOwned).find? key = some m ↔ _
  rw [Dict.find?_filter, Dict.find?_foldl_erase, Option.filter_eq_some_iff, ← c.mem_terminated]
  by_cases hkey : key ∈ succeededNames c.terminated
  · simp [hkey]
  · simp [hkey]

theorem mem_sharedStorage_left {v : Volume} : v ∈ c.left.sharedStorage ↔
    v ∈ d.sharedStorage ∧
      ¬ ∃ x ∈ c.destructions, x.request.id = v.id ∧ x.value?.isSome = true := by
  change v ∈ d.sharedStorage.filter (fun v => !(succeededNames c.destroyed).contains v.id) ↔ _
  rw [List.mem_filter, ← c.mem_destroyed]
  simp

end Cleaning

end BenchCluster
