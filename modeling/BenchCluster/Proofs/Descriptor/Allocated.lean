import BenchCluster.Proofs.Journal.Allocate

/-! # The descriptor after an allocation

An allocation keeps the members there are and adds, under the names of missing instances, external
machines and those that launches have brought. Nothing is missing afterwards if nothing has failed.
-/

namespace BenchCluster

/-- The machine that an attempt at a launch has brought, under the name of its instance. -/
def Attempt.machine? (a : Attempt LaunchRequest (Option Machine)) : Option Machine :=
  match a.value? with
  | some (some m) => some { m with name := a.request.name }
  | _ => none

theorem Attempt.machine?_eq_some {a : Attempt LaunchRequest (Option Machine)} {m : Machine} :
    a.machine? = some m ↔
      ∃ m', a.value? = some (some m') ∧ m = { m' with name := a.request.name } := by
  rw [machine?]
  rcases a.value? with _ | _ | m'
  · simp
  · simp
  · simp [eq_comm]

theorem launchedMachine?_report (a : Attempt LaunchRequest (Option Machine)) :
    launchedMachine? (Errand.launching.report a) = a.machine? := by
  rw [launchedMachine?, Attempt.machine?]
  cases h : a.value? with
  | none =>
    obtain ⟨e, he⟩ := Attempt.result_of_value?_eq_none h
    simp only [Errand.report, he]
  | some answer =>
    simp only [Errand.report, Attempt.result_of_value? h]
    cases answer <;> rfl

theorem createdVolume?_report (a : Attempt StorageRequest Volume) :
    createdVolume? (Errand.creating.report a) = a.value? := by
  rw [createdVolume?]
  cases h : a.value? with
  | none =>
    obtain ⟨e, he⟩ := Attempt.result_of_value?_eq_none h
    simp only [Errand.report, he]
  | some v => simp only [Errand.report, Attempt.result_of_value? h]

namespace Allocating

variable {cluster : String} {d : ClusterDescriptor} (a : Allocating cluster d)

theorem state_descriptor : a.descriptor.state =
    if a.allocation.failed.isEmpty then .allocated else .failed := rfl

def newMachines : List Machine := a.launches.filterMap Attempt.machine?

def newVolumes : List Volume := a.volumes.filterMap Attempt.value?

theorem launched_perm :
    (a.launched.filterMap launchedMachine?).Perm a.newMachines := by
  have hperm := a.launches_served.filterMap_perm launchedMachine?
  simp only [launchedMachine?_report] at hperm
  exact hperm

theorem created_perm :
    (a.created.filterMap createdVolume?).Perm a.newVolumes := by
  have hperm := a.volumes_served.filterMap_perm createdVolume?
  simp only [createdVolume?_report] at hperm
  exact hperm

def launchedNames : List String := a.newMachines.map Machine.name

theorem launchedNames_sublist :
    a.launchedNames.Sublist ((a.provisions.filterMap Provision.request?).map LaunchRequest.name) := by
  rw [launchedNames, newMachines, ← a.launches_served.requests_eq, List.map_map,
    List.map_filterMap]
  refine Errand.filterMap_sublist_map fun x name hname => ?_
  obtain ⟨m, hm, rfl⟩ := Option.map_eq_some_iff.1 hname
  obtain ⟨m', -, rfl⟩ := Attempt.machine?_eq_some.1 hm
  rfl

theorem mem_machines {m : Machine} : m ∈ a.allocation.machines ↔
    .external m ∈ a.provisions ∨ ∃ x ∈ a.launches, x.machine? = some m := by
  have hexternal : ∀ p : Provision, p.machine? = some m ↔ p = .external m := by
    intro p
    cases p <;> simp [Provision.machine?]
  rw [Allocation.machines, List.mem_append]
  change m ∈ a.provisions.filterMap Provision.machine? ∨
    m ∈ a.launched.filterMap launchedMachine? ↔ _
  rw [a.launched_perm.mem_iff, newMachines, List.mem_filterMap, List.mem_filterMap]
  simp only [hexternal, exists_eq_right]

theorem missing_of_mem_machines {m : Machine} (h : m ∈ a.allocation.machines) :
    ∃ role, (m.name, role) ∈ d.missingInstances := by
  rcases a.mem_machines.1 h with hm | ⟨x, hx, hm⟩
  · obtain ⟨role, hrole, -⟩ := ClusterDescriptor.mem_provisions a.provisions_eq hm
    exact ⟨role, hrole⟩
  · obtain ⟨m', -, rfl⟩ := Attempt.machine?_eq_some.1 hm
    have hrequest := a.launches_served.request_mem hx
    obtain ⟨role, hrole, -⟩ := ClusterDescriptor.mem_provisions a.provisions_eq
      (ClusterDescriptor.mem_requests.1 hrequest)
    exact ⟨role, hrole⟩

theorem find?_of_mem_machines {m : Machine} (h : m ∈ a.allocation.machines) :
    d.members.find? m.name = none := by
  obtain ⟨role, hrole⟩ := a.missing_of_mem_machines h
  exact (ClusterDescriptor.mem_missingInstances_iff.1 hrole).2

theorem find?_members_of_find? {key : String} {m : Machine} (h : d.members.find? key = some m) :
    a.descriptor.members.find? key = some m := by
  have hkey : key ∉ a.allocation.machines.map Machine.name := by
    intro hmem
    obtain ⟨n, hn, rfl⟩ := List.mem_map.1 hmem
    rw [a.find?_of_mem_machines hn] at h
    cases h
  exact (Dict.find?_foldl_insert_of_not_mem hkey).trans h

/-- A member was there before or is a new machine. -/
theorem find?_members {key : String} {m : Machine}
    (h : a.descriptor.members.find? key = some m) :
    d.members.find? key = some m ∨ (m ∈ a.allocation.machines ∧ m.name = key) := by
  rcases Dict.find?_foldl_insert (f := Machine.name) (g := id) h with ⟨n, hn, hname, rfl⟩ | ⟨-, hd⟩
  · exact .inr ⟨hn, hname⟩
  · exact .inl hd

theorem contains_members {key : String} : a.descriptor.members.contains key = true ↔
    key ∈ a.allocation.machines.map Machine.name ∨ d.members.contains key = true :=
  Dict.contains_foldl_insert (g := id)

/-- The volumes afterwards are those there were and those that were created. -/
theorem sharedStorage_perm : a.descriptor.sharedStorage.Perm
    (d.sharedStorage ++ a.newVolumes) :=
  a.created_perm.append_left _

def externalNames : List String :=
  (a.provisions.filterMap Provision.machine?).map Machine.name

theorem map_name_machines_perm : (a.allocation.machines.map Machine.name).Perm
    (a.externalNames ++ a.launchedNames) := by
  have hlaunched := a.launched_perm.map Machine.name
  rw [Allocation.machines, List.map_append]
  exact hlaunched.append_left _

/-- The names of all provisions, by their kinds. -/
theorem map_name_provisions_perm : (a.provisions.map Provision.name).Perm
    (a.externalNames ++ a.provisions.filterMap Provision.lacking? ++
      a.requests.map LaunchRequest.name) :=
  Provision.map_name_perm a.provisions

theorem nodup_names (h : (d.instances.map Prod.fst).Nodup) :
    (a.externalNames ++ a.provisions.filterMap Provision.lacking? ++
      a.requests.map LaunchRequest.name).Nodup := by
  refine a.map_name_provisions_perm.nodup ?_
  rw [ClusterDescriptor.map_name_provisions a.provisions_eq]
  exact ClusterDescriptor.nodup_missingInstances h

theorem nodup_machines (h : (d.instances.map Prod.fst).Nodup) :
    (a.allocation.machines.map Machine.name).Nodup := by
  have hparts := a.nodup_names h
  rw [List.append_assoc] at hparts
  have hsub := hparts.sublist ((List.Sublist.refl _).append (List.sublist_append_right _ _))
  have hlaunched := hsub.sublist ((List.Sublist.refl _).append a.launchedNames_sublist)
  exact a.map_name_machines_perm.symm.nodup hlaunched

/-- With distinct instance names the members afterwards are those that were there and the new
machines. -/
theorem find?_members_iff (h : (d.instances.map Prod.fst).Nodup) {key : String} {m : Machine} :
    a.descriptor.members.find? key = some m ↔
      d.members.find? key = some m ∨ (m ∈ a.allocation.machines ∧ m.name = key) := by
  refine ⟨a.find?_members, ?_⟩
  rintro (hold | ⟨hnew, rfl⟩)
  · exact a.find?_members_of_find? hold
  · exact Dict.find?_foldl_insert_of_mem (g := id) (a.nodup_machines h) hnew

/-- An instance is missing afterwards if it was before and there is no new machine for it. -/
theorem missingInstances_eq : a.descriptor.missingInstances =
    d.missingInstances.filter fun i => !(a.allocation.machines.map Machine.name).contains i.1 := by
  rw [ClusterDescriptor.missingInstances, ClusterDescriptor.missingInstances, List.filter_filter]
  refine List.filter_congr fun i _ => ?_
  have hcontains : a.descriptor.members.contains i.1 =
      ((a.allocation.machines.map Machine.name).contains i.1 || d.members.contains i.1) := by
    rw [Bool.eq_iff_iff, Bool.or_eq_true, List.contains_iff_mem]
    exact a.contains_members
  rw [← Bool.not_or, ← hcontains]

/-! ## What has failed -/

def uncreatedLabels : List String :=
  (a.volumes.filter fun x => x.value?.isNone).map fun x => x.request.label

/-- What has failed are the instances without hosts, the launches without a machine and the volumes
that were not created. -/
theorem failed_perm : a.allocation.failed.Perm
    (a.provisions.filterMap Provision.lacking? ++
      (a.requests.map LaunchRequest.name).filter (fun name => !a.launchedNames.contains name) ++
      a.uncreatedLabels) := by
  have hvolumes := a.volumes_served.filterMap_perm fun r : JobResult Volume =>
    if r.2.isOk then none else some r.1
  have hreports : (a.volumes.filterMap fun x =>
      if (Errand.creating.report x).2.isOk then none else some (Errand.creating.report x).1) =
        a.uncreatedLabels := by
    rw [uncreatedLabels, ← List.filterMap_eq_map, List.filterMap_filter]
    refine List.filterMap_congr fun x _ => ?_
    rw [Errand.report, x.isOk_result]
    cases x.value? <;> rfl
  have hnames : ∀ name, ((a.launched.filterMap launchedMachine?).map Machine.name).contains name =
      a.launchedNames.contains name := by
    intro name
    rw [Bool.eq_iff_iff, List.contains_iff_mem, List.contains_iff_mem]
    exact (a.launched_perm.map Machine.name).mem_iff
  rw [hreports] at hvolumes
  refine (List.mergeSort_perm _ _).trans ?_
  refine List.Perm.append ?_ hvolumes
  refine List.Perm.of_eq (congrArg _ (List.filter_congr fun name _ => ?_))
  exact congrArg _ (hnames name)

theorem map_missingInstances : a.descriptor.missingInstances.map Prod.fst =
    (a.provisions.map Provision.name).filter fun name =>
      !(a.allocation.machines.map Machine.name).contains name := by
  rw [a.missingInstances_eq, ClusterDescriptor.map_name_provisions a.provisions_eq,
    List.filter_map]
  rfl

/-- With distinct instance names, the instances that have failed are those that are missing
afterwards. -/
theorem missing_perm (h : (d.instances.map Prod.fst).Nodup) :
    (a.provisions.filterMap Provision.lacking? ++
      (a.requests.map LaunchRequest.name).filter fun name => !a.launchedNames.contains name).Perm
        (a.descriptor.missingInstances.map Prod.fst) := by
  have hnodup := a.nodup_names h
  rw [List.nodup_append, List.nodup_append] at hnodup
  obtain ⟨⟨-, -, hlacking⟩, -, hrequested⟩ := hnodup
  have hmachines : ∀ name, (a.allocation.machines.map Machine.name).contains name = true ↔
      name ∈ a.externalNames ∨ name ∈ a.launchedNames := by
    intro name
    rw [List.contains_iff_mem, a.map_name_machines_perm.mem_iff, List.mem_append]
  have hexternal : a.externalNames.filter (fun name =>
      !(a.allocation.machines.map Machine.name).contains name) = [] := by
    refine List.filter_eq_nil_iff.2 fun name hname => ?_
    rw [Bool.not_eq_true, Bool.not_eq_false', hmachines]
    exact .inl hname
  have hlackingKept : (a.provisions.filterMap Provision.lacking?).filter (fun name =>
      !(a.allocation.machines.map Machine.name).contains name) =
        a.provisions.filterMap Provision.lacking? := by
    refine List.filter_eq_self.2 fun name hname => ?_
    rw [Bool.not_eq_true', ← Bool.not_eq_true, hmachines]
    rintro (hin | hin)
    · exact hlacking _ hin _ hname rfl
    · exact hrequested _ (List.mem_append_right _ hname) _ (a.launchedNames_sublist.subset hin) rfl
  have hrequestedKept : (a.requests.map LaunchRequest.name).filter (fun name =>
      !(a.allocation.machines.map Machine.name).contains name) =
        (a.requests.map LaunchRequest.name).filter fun name => !a.launchedNames.contains name := by
    refine List.filter_congr fun name hname => congrArg _ ?_
    have hnot : name ∉ a.externalNames := fun hin =>
      hrequested _ (List.mem_append_left _ hin) _ hname rfl
    rw [Bool.eq_iff_iff, hmachines, List.contains_iff_mem]
    exact or_iff_right hnot
  have hparts := a.map_name_provisions_perm.filter fun name =>
    !(a.allocation.machines.map Machine.name).contains name
  rw [List.filter_append, List.filter_append, hexternal, hlackingKept, hrequestedKept,
    List.nil_append] at hparts
  rw [a.map_missingInstances]
  exact hparts.symm

theorem missingInstances_of_failed_isEmpty (h : a.allocation.failed.isEmpty = true) :
    a.descriptor.missingInstances = [] := by
  have hperm := a.failed_perm
  rw [List.isEmpty_iff.1 h, List.nil_perm, List.append_eq_nil_iff, List.append_eq_nil_iff] at hperm
  obtain ⟨⟨hlacking, hlaunches⟩, -⟩ := hperm
  rw [a.missingInstances_eq, List.filter_eq_nil_iff]
  rintro ⟨name, role⟩ hmissing
  obtain ⟨p, hp, hprovision⟩ := ClusterDescriptor.exists_mem_provisions a.provisions_eq hmissing
  have hname := ClusterDescriptor.name_of_provision hprovision
  suffices hmem : name ∈ a.allocation.machines.map Machine.name by simpa using hmem
  subst hname
  cases p with
  | external m => exact List.mem_map_of_mem (a.mem_machines.2 (.inl hp))
  | lacking name =>
    have hnone := List.filterMap_eq_nil_iff.1 hlacking _ hp
    cases hnone
  | launch r =>
    have hr := List.mem_map_of_mem (f := LaunchRequest.name) (ClusterDescriptor.mem_requests.2 hp)
    have hlaunched := List.filter_eq_nil_iff.1 hlaunches _ hr
    rw [Bool.not_eq_true, Bool.not_eq_false', List.contains_iff_mem] at hlaunched
    obtain ⟨m, hm, hname⟩ := List.mem_map.1 hlaunched
    obtain ⟨x, hx, hmachine⟩ := List.mem_filterMap.1 hm
    exact List.mem_map.2 ⟨m, a.mem_machines.2 (.inr ⟨x, hx, hmachine⟩), hname⟩

end Allocating

end BenchCluster
