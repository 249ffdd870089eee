import Mathlib
import BenchCluster.Proofs.Descriptor.Allocated
import BenchCluster.Proofs.Descriptor.Planned

/-! # Every missing instance is accounted for

An allocation that goes through gives an account: which instances and volumes it has obtained, and
the names of all others. The account follows from the calls it has made and their answers.
-/

namespace BenchCluster

def OutsideCall.launch? : OutsideCall → Option LaunchRequest
  | .launch _ r _ => some r
  | _ => none

/-- The request of a creation that has succeeded, and the volume. -/
def OutsideCall.creation? : OutsideCall → Option (StorageRequest × Volume)
  | .createVolume _ r (.ok v) => some (r, v)
  | _ => none

namespace ClusterDescriptor

/-- A machine has been obtained for an instance of a role: if the role is managed, the machine that
a launch has returned, under whatever name, and otherwise the external machine of the instance. -/
def Obtained (d : ClusterDescriptor) (cluster : String) (calls : List JournalEntry)
    (name role : String) (m : Machine) : Prop :=
  ∃ env params, d.component? role = some (env, params) ∧
    ((params.managed = true ∧ ∃ e ∈ calls, ∃ place answered,
        e.call = .launch place (d.launchRequest cluster name role env params)
          (.ok (some answered)) ∧ m = { answered with name := name }) ∨
      (params.managed = false ∧
        External.machine? (d.launchRequest cluster name role env params) = some m))

def wantedVolumes (d : ClusterDescriptor) (cluster : String) : List StorageRequest :=
  match d.provisions cluster with
  | .ok provisions => d.missingVolumes cluster (provisions.filterMap Provision.request?)
  | .error _ => []

/-- The account of an allocation: its calls, the descriptor afterwards and the names of what it
could not obtain. -/
structure Accounted (d : ClusterDescriptor) (cluster : String) (calls : List JournalEntry)
    (after : ClusterDescriptor) (failed : List String) : Prop where
  /-- No name is launched twice. -/
  launched_once : ((calls.filterMap fun e => e.call.launch?).map LaunchRequest.name).Nodup
  /-- Launches are for missing instances of managed roles, with their indices. -/
  launched : ∀ r ∈ calls.filterMap fun e => e.call.launch?, ∃ role env params,
    (r.name, role) ∈ d.missingInstances ∧ d.component? role = some (env, params) ∧
      params.managed = true ∧ r = d.launchRequest cluster r.name role env params ∧
      (d.instancesOf role)[r.index]? = some r.name
  /-- Old members are kept, and the new ones are the machines that have been obtained. -/
  members : ∀ key m, after.members.find? key = some m ↔ d.members.find? key = some m ∨
    ∃ role, (key, role) ∈ d.missingInstances ∧ d.Obtained cluster calls key role m
  /-- A machine that has been obtained bears the name of its instance. -/
  named : ∀ key role m, d.Obtained cluster calls key role m → m.name = key
  /-- The instances of roles that are not managed have machines if their roles list hosts. -/
  external : ∀ key role env params, d.component? role = some (env, params) →
    params.managed = false →
      ((∃ m, d.Obtained cluster calls key role m) ↔ params.hosts ≠ [])
  /-- Old volumes are kept, and the new ones are those that have been created. -/
  sharedStorage : ∃ created, after.sharedStorage = d.sharedStorage ++ created ∧
    created.Perm ((calls.filterMap fun e => e.call.creation?).map Prod.snd)
  /-- What has failed are the instances still missing and the volumes that were not created. -/
  failed_perm : ∃ uncreated,
    (d.wantedVolumes cluster).Perm
        ((calls.filterMap fun e => e.call.creation?).map Prod.fst ++ uncreated) ∧
      failed.Perm (after.missingInstances.map Prod.fst ++ uncreated.map StorageRequest.label)
  failed_sorted : failed.Pairwise (· ≤ ·)
  state : after.state = if failed = [] then .allocated else .failed
  /-- Nothing else changes. -/
  frame : after = { d with
    members := after.members, sharedStorage := after.sharedStorage, state := after.state }

/-- For an instance of a role that is not managed, its external machine can be obtained only. -/
theorem exists_obtained_iff {d : ClusterDescriptor} {cluster : String} {calls : List JournalEntry}
    {name role : String} {env : Environment} {params : ComponentParams}
    (hcomponent : d.component? role = some (env, params)) (hmanaged : params.managed = false) :
    (∃ m, d.Obtained cluster calls name role m) ↔
      ∃ m, External.machine? (d.launchRequest cluster name role env params) = some m := by
  refine exists_congr fun m => ?_
  constructor
  · rintro ⟨env', params', hcomponent', hcases⟩
    rw [hcomponent, Option.some.injEq, Prod.mk.injEq] at hcomponent'
    obtain ⟨rfl, rfl⟩ := hcomponent'
    rcases hcases with ⟨hmanaged', -⟩ | ⟨-, hm⟩
    · rw [hmanaged] at hmanaged'
      cases hmanaged'
    · exact hm
  · intro hm
    exact ⟨env, params, hcomponent, .inr ⟨hmanaged, hm⟩⟩

end ClusterDescriptor

namespace Allocating

variable {cluster : String} {d : ClusterDescriptor} (a : Allocating cluster d)

theorem launches_in_entries : (a.entries.filterMap fun e => e.call.launch?) =
    a.launches.filterMap fun x => x.answer.map fun _ => x.request := by
  have hlaunches := Errand.launching.filterMap_entries OutsideCall.launch? a.launches
  have hvolumes := Errand.creating.filterMap_entries OutsideCall.launch? a.volumes
  have hnone : (a.volumes.filterMap fun x => x.answer.bind fun r =>
      (Errand.creating.call x.environment x.request r).launch?) = [] := by
    refine List.filterMap_eq_nil_iff.2 fun x _ => ?_
    cases x.answer <;> rfl
  rw [entries, List.filterMap_append, hlaunches, hvolumes, hnone, List.append_nil]
  refine List.filterMap_congr fun x _ => ?_
  cases x.answer <;> rfl

theorem creations_in_entries : (a.entries.filterMap fun e => e.call.creation?) =
    a.volumes.filterMap fun x => x.value?.map fun v => (x.request, v) := by
  have hlaunches := Errand.launching.filterMap_entries OutsideCall.creation? a.launches
  have hvolumes := Errand.creating.filterMap_entries OutsideCall.creation? a.volumes
  have hnone : (a.launches.filterMap fun x => x.answer.bind fun r =>
      (Errand.launching.call x.environment x.request r).creation?) = [] := by
    refine List.filterMap_eq_nil_iff.2 fun x _ => ?_
    cases x.answer <;> rfl
  rw [entries, List.filterMap_append, hlaunches, hvolumes, hnone, List.nil_append]
  refine List.filterMap_congr fun x _ => ?_
  rw [Attempt.value?]
  rcases x.answer with _ | e | v
  · rfl
  · rfl
  · rfl

theorem request_of_launch {r : LaunchRequest}
    (h : r ∈ a.entries.filterMap fun e => e.call.launch?) :
    ∃ role env params, (r.name, role) ∈ d.missingInstances ∧
      d.component? role = some (env, params) ∧ params.managed = true ∧
      r = d.launchRequest cluster r.name role env params := by
  rw [a.launches_in_entries, List.mem_filterMap] at h
  obtain ⟨x, hx, hr⟩ := h
  obtain ⟨-, -, rfl⟩ := Option.map_eq_some_iff.1 hr
  obtain ⟨role, hmissing, hprovision⟩ := ClusterDescriptor.mem_provisions a.provisions_eq
    (ClusterDescriptor.mem_requests.1 (a.launches_served.request_mem hx))
  obtain ⟨env, params, hcomponent, hmanaged, hrequest⟩ :=
    ClusterDescriptor.provision_eq_launch hprovision
  exact ⟨role, env, params, hmissing, hcomponent, hmanaged, hrequest⟩

theorem nodup_launches (h : (d.instances.map Prod.fst).Nodup) :
    ((a.entries.filterMap fun e => e.call.launch?).map LaunchRequest.name).Nodup := by
  have hrequests := (a.nodup_names h).sublist (List.sublist_append_right _ _)
  rw [Allocating.requests, ← a.launches_served.requests_eq, List.map_map] at hrequests
  rw [a.launches_in_entries, List.map_filterMap]
  refine hrequests.sublist (Errand.filterMap_sublist_map fun x name hname => ?_)
  cases hx : x.answer with
  | none => simp [hx] at hname
  | some r => simpa [hx] using hname

theorem obtained_of_mem_machines {m : Machine} (h : m ∈ a.allocation.machines) :
    ∃ role, (m.name, role) ∈ d.missingInstances ∧
      d.Obtained cluster a.entries m.name role m := by
  rcases a.mem_machines.1 h with hexternal | ⟨x, hx, hmachine⟩
  · obtain ⟨role, hmissing, hprovision⟩ :=
      ClusterDescriptor.mem_provisions a.provisions_eq hexternal
    obtain ⟨env, params, hcomponent, hmanaged, hm⟩ :=
      ClusterDescriptor.provision_eq_external hprovision
    exact ⟨role, hmissing, env, params, hcomponent, .inr ⟨hmanaged, hm⟩⟩
  · obtain ⟨answered, hvalue, rfl⟩ := Attempt.machine?_eq_some.1 hmachine
    have hentry := Errand.entry_mem (e := Errand.launching) hx (Attempt.value?_eq_some.1 hvalue)
    obtain ⟨role, hmissing, hprovision⟩ := ClusterDescriptor.mem_provisions a.provisions_eq
      (ClusterDescriptor.mem_requests.1 (a.launches_served.request_mem hx))
    obtain ⟨env, params, hcomponent, hmanaged, hrequest⟩ :=
      ClusterDescriptor.provision_eq_launch hprovision
    refine ⟨role, hmissing, env, params, hcomponent, .inl ⟨hmanaged, _,
      List.mem_append_left _ hentry, x.environment, answered, ?_, rfl⟩⟩
    exact congrArg (OutsideCall.launch _ · _) hrequest

/-- The machine that a launch among the calls has returned is new, under the name requested. -/
theorem mem_machines_of_launch {e : JournalEntry} (he : e ∈ a.entries) {place : Environment}
    {r : LaunchRequest} {answered : Machine}
    (hcall : e.call = .launch place r (.ok (some answered))) :
    { answered with name := r.name } ∈ a.allocation.machines := by
  refine a.mem_machines.2 (.inr ?_)
  rcases List.mem_append.1 he with he | he
  · obtain ⟨x, hx, answer, hanswer, rfl⟩ := Errand.mem_flatMap_entries he
    obtain ⟨-, rfl, rfl⟩ := OutsideCall.launch.inj hcall
    exact ⟨x, hx, Attempt.machine?_eq_some.2 ⟨answered, Attempt.value?_eq_some.2 hanswer, rfl⟩⟩
  · obtain ⟨x, -, r, -, rfl⟩ := Errand.mem_flatMap_entries he
    cases hcall

theorem mem_machines_of_external {name role : String} (hmissing : (name, role) ∈ d.missingInstances)
    {env : Environment} {params : ComponentParams}
    (hcomponent : d.component? role = some (env, params)) (hmanaged : params.managed = false)
    {m : Machine}
    (hm : External.machine? (d.launchRequest cluster name role env params) = some m) :
    m ∈ a.allocation.machines := by
  obtain ⟨p, hp, hprovision⟩ := ClusterDescriptor.exists_mem_provisions a.provisions_eq hmissing
  obtain ⟨env', params', hcomponent', hcases⟩ := ClusterDescriptor.provision_eq_ok hprovision
  rw [hcomponent, Option.some.injEq, Prod.mk.injEq] at hcomponent'
  obtain ⟨rfl, rfl⟩ := hcomponent'
  rcases hcases with ⟨hmanaged', -⟩ | ⟨-, ⟨m', hm', rfl⟩ | ⟨hnone, -⟩⟩
  · rw [hmanaged] at hmanaged'
    cases hmanaged'
  · rw [hm, Option.some.injEq] at hm'
    exact a.mem_machines.2 (.inl (hm' ▸ hp))
  · rw [hm] at hnone
    cases hnone

/-- The new machines are those that have been obtained for missing instances. -/
theorem mem_machines_iff_obtained {key : String} {m : Machine} :
    (m ∈ a.allocation.machines ∧ m.name = key) ↔
      ∃ role, (key, role) ∈ d.missingInstances ∧ d.Obtained cluster a.entries key role m := by
  constructor
  · rintro ⟨hm, rfl⟩
    exact a.obtained_of_mem_machines hm
  · rintro ⟨role, hmissing, env, params, hcomponent, ⟨-, e, he, place, answered, hcall, rfl⟩ |
      ⟨hmanaged, hm⟩⟩
    · exact ⟨a.mem_machines_of_launch he hcall, rfl⟩
    · exact ⟨a.mem_machines_of_external hmissing hcomponent hmanaged hm,
        (External.machine?_eq_some hm).1⟩

def uncreated : List StorageRequest :=
  (a.volumes.filter fun x => x.value?.isNone).map Attempt.request

theorem wantedVolumes_perm : (d.wantedVolumes cluster).Perm
    ((a.entries.filterMap fun e => e.call.creation?).map Prod.fst ++ a.uncreated) := by
  have hwanted : d.wantedVolumes cluster = a.volumes.map Attempt.request := by
    rw [a.volumes_served.requests_eq, ClusterDescriptor.wantedVolumes, a.provisions_eq]
  have hcreated : (a.volumes.filterMap fun x => x.value?.map fun _ => x.request) =
      (a.volumes.filter fun x => !x.value?.isNone).map Attempt.request := by
    rw [← List.filterMap_eq_map, List.filterMap_filter]
    refine List.filterMap_congr fun x _ => ?_
    cases x.value? <;> rfl
  rw [a.creations_in_entries, List.map_filterMap]
  simp only [Option.map_map, Function.comp_def]
  rw [hwanted, hcreated, uncreated, ← List.map_append]
  refine List.Perm.map _ ?_
  exact (List.filter_append_perm _ a.volumes).symm.trans List.perm_append_comm

theorem volumes_in_entries :
    (a.entries.filterMap fun e => e.call.creation?).map Prod.snd = a.newVolumes := by
  rw [a.creations_in_entries, List.map_filterMap, newVolumes]
  refine List.filterMap_congr fun x _ => ?_
  cases x.value? <;> rfl

theorem accounted (h : (d.instances.map Prod.fst).Nodup) :
    d.Accounted cluster a.entries a.descriptor a.allocation.failed where
  launched_once := a.nodup_launches h
  launched := by
    intro r hr
    obtain ⟨role, env, params, hmissing, hcomponent, hmanaged, hrequest⟩ := a.request_of_launch hr
    refine ⟨role, env, params, hmissing, hcomponent, hmanaged, hrequest, ?_⟩
    rw [hrequest]
    exact ClusterDescriptor.getElem?_index
      (ClusterDescriptor.mem_missingInstances_iff.1 hmissing).1 env params
  members := by
    intro key m
    rw [a.find?_members_iff h, a.mem_machines_iff_obtained]
  named := by
    rintro key role m ⟨env, params, -, ⟨-, e, -, place, answered, -, rfl⟩ | ⟨-, hm⟩⟩
    · rfl
    · exact (External.machine?_eq_some hm).1
  external := by
    intro key role env params hcomponent hmanaged
    rw [ClusterDescriptor.exists_obtained_iff hcomponent hmanaged]
    exact External.exists_machine?_iff (r := d.launchRequest cluster key role env params)
  sharedStorage := by
    refine ⟨a.created.filterMap createdVolume?, rfl, ?_⟩
    rw [a.volumes_in_entries]
    exact a.created_perm
  failed_perm := by
    refine ⟨a.uncreated, a.wantedVolumes_perm, ?_⟩
    have hlabels : a.uncreated.map StorageRequest.label = a.uncreatedLabels := by
      rw [uncreated, uncreatedLabels, List.map_map]
      rfl
    rw [hlabels]
    exact a.failed_perm.trans ((a.missing_perm h).append_right _)
  failed_sorted := pairwise_mergeSort_of_key id _
  state := by
    rw [a.state_descriptor]
    simp only [List.isEmpty_iff]
  frame := rfl

end Allocating

namespace Surroundings

variable {ω : Type} {s : Surroundings ω} {start : Invocation ω} {b : Books} {cluster : String}
  {d : ClusterDescriptor} {force : Bool}

theorem play_allocate {answer : Except OrchestratorError ClusterDescriptor}
    {after : Invocation (Booked ω)}
    (h : (s.booked.allocate cluster force).outcome (start.withBooks b) = (answer, after)) :
    (s.turn start cluster (.allocate force)).play b = (answer.map some, after.books) := by
  change ((s.booked.allocate cluster force >>= fun d => return some d).outcome
    (start.withBooks b)).map id Invocation.books = _
  rw [Work.outcome_some, h]
  rfl

/-- An allocation that may begin goes through, and gives an account. -/
theorem allocate_accounted (hnamed : b.Named) (hd : b.find? cluster = some d)
    (hplanned : d.Planned) (hnames : (d.instances.map Prod.fst).Nodup)
    (hallowed : d.state.allows (.allocate force) = true)
    (hgo : s.interrupted start.outside = false) {clouds : Dict (Cloud ω)}
    (hclouds : s.cloudsFor d.environments = .ok clouds) :
    ∃ calls late after failed, d.Accounted cluster calls after failed ∧
      (s.turn start cluster (.allocate force)).books b = (b.enter calls).put late after ∧
      (s.turn start cluster (.allocate force)).answer b =
        if failed = [] then .ok (some after) else .error (.allocationFailed cluster failed) := by
  obtain ⟨hname, hvalid⟩ := hnamed cluster d hd
  have hload : (s.booked.loadFor cluster (.allocate force)).outcome (start.withBooks b) =
      (.ok d, start.withBooks b) := loadFor_of_allowed hvalid hd hallowed hgo
  obtain ⟨booked, hbooked⟩ := cloudsFor_booked hclouds
  obtain ⟨provisions, hprovisions⟩ := hplanned.exists_provisions cluster
  obtain ⟨a, late, after, houtcome, hafter⟩ :=
    allocate_outcome hload (hname ▸ hvalid) hbooked hprovisions
  refine ⟨a.entries, late, a.descriptor, a.allocation.failed, a.accounted hnames, ?_, ?_⟩
  · rw [Turn.books, play_allocate houtcome, hafter]
    rfl
  · rw [Turn.answer, play_allocate houtcome, Allocating.answer]
    by_cases hfailed : a.allocation.failed = []
    · rw [if_pos hfailed, if_pos (List.isEmpty_iff.2 hfailed)]
      rfl
    · rw [if_neg hfailed, if_neg (fun h => hfailed (List.isEmpty_iff.1 h))]
      rfl

end Surroundings

/-- Whatever has happened before and however the clouds answer, an allocation that is allowed, not
interrupted beforehand and has clients for its environments accounts for every missing instance. -/
theorem allocation_accounts (turns : List Turn) {cluster : String} {d : ClusterDescriptor}
    (hd : (Books.after turns).find? cluster = some d) (hnames : (d.instances.map Prod.fst).Nodup)
    {ω : Type} (s : Surroundings ω) (start : Invocation ω) {force : Bool}
    (hallowed : d.state.allows (.allocate force) = true)
    (hgo : s.interrupted start.outside = false) {clouds : Dict (Cloud ω)}
    (hclouds : s.cloudsFor d.environments = .ok clouds) :
    ∃ calls late after failed, d.Accounted cluster calls after failed ∧
      (s.turn start cluster (.allocate force)).books (Books.after turns) =
        ((Books.after turns).enter calls).put late after ∧
      (s.turn start cluster (.allocate force)).answer (Books.after turns) =
        if failed = [] then .ok (some after) else .error (.allocationFailed cluster failed) :=
  Surroundings.allocate_accounted (Books.named_after turns) hd (Books.planned_after turns _ _ hd)
    hnames hallowed hgo hclouds

/-- The second allocation finds two machines, and fails for one of two others and for a volume. -/
theorem sample_allocation_accounts : ∃ d,
    (Books.after ((Sample.setbacks Sample.surroundings).take 2)).find? "c" = some d ∧
      d.members.keys = ["db_0", "db_2"] ∧
      ∃ calls after, d.Accounted "c" calls after ["db_3", "fake-r1/data"] := by
  let turns := (Sample.setbacks Sample.surroundings).take 2
  let scarce := Sample.busy Sample.surroundings ["db_3", "data"]
  have hplayed : (((Books.after turns).find? "c").map fun d =>
        (d.state, d.instances.map Prod.fst, d.members.keys,
          (scarce.cloudsFor d.environments).isOk),
      (scarce.turn { outside := 10 } "c" (.allocate true)).answer (Books.after turns)) =
      (some (.failed, ["db_0", "db_1", "db_2", "db_3"], ["db_0", "db_2"], true),
        .error (.allocationFailed "c" ["db_3", "fake-r1/data"])) := by
    cbv
  obtain ⟨hstored, hanswer⟩ := Prod.mk.inj hplayed
  obtain ⟨d, hd, hfields⟩ := Option.map_eq_some_iff.1 hstored
  simp only [Prod.mk.injEq] at hfields
  obtain ⟨hstate, hinstances, hmembers, hbuilt⟩ := hfields
  obtain ⟨clouds, hclouds⟩ := Fallible.isOk_iff.1 hbuilt
  have hallowed : d.state.allows (.allocate true) = true := by
    rw [hstate]
    decide
  have hnames : (d.instances.map Prod.fst).Nodup := by
    rw [hinstances]
    decide
  obtain ⟨calls, -, after, failed, haccount, -, hfailed⟩ :=
    allocation_accounts turns hd hnames scarce { outside := 10 } hallowed rfl hclouds
  rw [hanswer] at hfailed
  split at hfailed
  · cases hfailed
  · cases hfailed
    exact ⟨d, hd, hmembers, calls, after, haccount⟩

end BenchCluster
