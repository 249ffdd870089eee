import BenchCluster.Proofs.Journal.Power

/-! # The descriptor after instances have been started

A member whose instance has come up has the machine that the cloud has answered; the others are as
they were.
-/

namespace BenchCluster

def startedMachine? (r : JobResult Machine) : Option (String × Machine) :=
  match r.2 with
  | .ok m => some (r.1, m)
  | .error _ => none

theorem startedMachine?_report (a : Attempt Machine Machine) :
    startedMachine? (Errand.starting.report a) = a.value?.map fun m => (a.request.name, m) := by
  rw [startedMachine?]
  cases h : a.value? with
  | none =>
    obtain ⟨e, he⟩ := Attempt.result_of_value?_eq_none h
    simp only [Errand.report, he, Option.map_none]
  | some v => simp only [Errand.report, Attempt.result_of_value? h, Option.map_some]; rfl

theorem ClusterDescriptor.members_withStarted (d : ClusterDescriptor)
    (results : List (JobResult Machine)) : (d.withStarted results).members =
      (results.filterMap startedMachine?).foldl (fun members p => members.insert p.1 p.2)
        d.members := by
  rw [withStarted]
  generalize d.members = members
  induction results generalizing members with
  | nil => rfl
  | cons r rest ih =>
    obtain ⟨name, e | m⟩ := r
    · exact ih members
    · exact ih (members.insert name m)

namespace Starting

variable {d : ClusterDescriptor} (x : Starting d)

theorem started_perm : (x.results.filterMap startedMachine?).Perm
    (x.attempts.filterMap fun a => a.value?.map fun m => (a.request.name, m)) := by
  have hperm := x.served.filterMap_perm startedMachine?
  simp only [startedMachine?_report] at hperm
  exact hperm

theorem find?_members {key : String} {m : Machine}
    (h : x.descriptor.members.find? key = some m) : d.members.find? key = some m ∨
      ∃ a ∈ x.attempts, a.request.name = key ∧ a.value? = some m := by
  rw [descriptor, d.members_withStarted] at h
  rcases Dict.find?_foldl_insert (f := Prod.fst) (g := Prod.snd) h with
    ⟨p, hp, hname, rfl⟩ | ⟨-, hd⟩
  · obtain ⟨a, ha, hvalue⟩ := List.mem_filterMap.1 (x.started_perm.mem_iff.1 hp)
    obtain ⟨m, hm, rfl⟩ := Option.map_eq_some_iff.1 hvalue
    exact .inr ⟨a, ha, hname, hm⟩
  · exact .inl hd

theorem contains_members {key : String} : x.descriptor.members.contains key = true ↔
    (∃ a ∈ x.attempts, a.request.name = key ∧ a.value?.isSome = true) ∨
      d.members.contains key = true := by
  rw [descriptor, d.members_withStarted,
    Dict.contains_foldl_insert (f := Prod.fst) (g := Prod.snd)]
  refine or_congr_left ?_
  rw [(x.started_perm.map Prod.fst).mem_iff]
  constructor
  · intro h
    obtain ⟨p, hp, rfl⟩ := List.mem_map.1 h
    obtain ⟨a, ha, hvalue⟩ := List.mem_filterMap.1 hp
    obtain ⟨m, hm, rfl⟩ := Option.map_eq_some_iff.1 hvalue
    exact ⟨a, ha, rfl, by simp [hm]⟩
  · rintro ⟨a, ha, rfl, hvalue⟩
    obtain ⟨m, hm⟩ := Option.isSome_iff_exists.1 hvalue
    exact List.mem_map.2 ⟨(a.request.name, m), List.mem_filterMap.2 ⟨a, ha, by simp [hm]⟩, rfl⟩

end Starting

end BenchCluster
