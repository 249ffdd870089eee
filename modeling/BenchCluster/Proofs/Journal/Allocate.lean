import BenchCluster.Proofs.Journal.Pool
import BenchCluster.Proofs.Orchestrator.Provision

/-! # What an allocation enters in the books

An allocation is refused and changes nothing, or it attempts every launch and every volume, enters
these attempts and stores what they have brought.
-/

namespace BenchCluster

variable {ω : Type}

/-- The work of an allocation on a descriptor: what becomes of the missing instances, and the
attempts at launches and volumes with the results that the pools have reported. -/
structure Allocating (cluster : String) (d : ClusterDescriptor) where
  provisions : List Provision
  launches : List (Attempt LaunchRequest (Option Machine))
  volumes : List (Attempt StorageRequest Volume)
  launched : List (JobResult (Option Machine))
  created : List (JobResult Volume)
  provisions_eq : d.provisions cluster = .ok provisions
  launches_served : Errand.launching.Served d.environments
    (provisions.filterMap Provision.request?) launches launched
  volumes_served : Errand.creating.Served d.environments
    (d.missingVolumes cluster (provisions.filterMap Provision.request?)) volumes created

namespace Allocating

variable {cluster : String} {d : ClusterDescriptor}

def requests (a : Allocating cluster d) : List LaunchRequest :=
  a.provisions.filterMap Provision.request?

def allocation (a : Allocating cluster d) : Allocation := ⟨a.provisions, a.launched, a.created⟩

def entries (a : Allocating cluster d) : List JournalEntry :=
  a.launches.flatMap Errand.launching.entries ++ a.volumes.flatMap Errand.creating.entries

def descriptor (a : Allocating cluster d) : ClusterDescriptor := a.allocation.record d

def answer (a : Allocating cluster d) : Except OrchestratorError ClusterDescriptor :=
  if a.allocation.failed.isEmpty then .ok a.descriptor
  else .error (.allocationFailed cluster a.allocation.failed)

end Allocating

namespace Surroundings

variable {s : Surroundings ω} {cluster : String} {force : Bool} {d : ClusterDescriptor}
  {inv : Invocation (Booked ω)}

/-- The part of an allocation before the descriptor is stored. -/
def acquire (s : Surroundings ω) (cluster : String) (d : ClusterDescriptor) :
    Work ω Allocation := do
  let clouds ← Work.ofExcept id (s.cloudsFor d.environments)
  let provisions ← Work.ofExcept id (d.provisions cluster)
  let requests := provisions.filterMap Provision.request?
  let launches ← Work.ofExcept id (requests.mapM (launchJob clouds))
  let volumes ← Work.ofExcept id ((d.missingVolumes cluster requests).mapM (volumeJob clouds))
  let launched ← Work.ofAction (s.inPool .launches launches)
  let created ← Work.ofAction (s.inPool .volumes volumes)
  return ⟨provisions, launched, created⟩

def report (cluster : String) (d : ClusterDescriptor) (allocation : Allocation) :
    Work ω ClusterDescriptor :=
  if allocation.failed.isEmpty then return allocation.record d
  else throw (.allocationFailed cluster allocation.failed)

theorem allocate_eq (s : Surroundings ω) (cluster : String) (force : Bool) :
    s.allocate cluster force = (do
      let d ← s.loadFor cluster (.allocate force)
      let allocation ← s.acquire cluster d
      s.save (allocation.record d)
      report cluster d allocation) := by
  rw [allocate]
  congr 1
  funext d
  rw [acquire]
  simp only [bind_assoc, pure_bind]
  rfl

theorem report_outcome (a : Allocating cluster d) (inv : Invocation ω) :
    (report cluster d a.allocation).outcome inv = (a.answer, inv) := by
  rw [report, Allocating.answer]
  by_cases hfailed : a.allocation.failed.isEmpty
  · rw [if_pos hfailed, if_pos hfailed]
    rfl
  · rw [if_neg hfailed, if_neg hfailed]
    rfl

/-- With the clients and the provisions, every launch and every volume is attempted. -/
theorem acquire_outcome {clouds : Dict (Cloud (Booked ω))}
    (hclouds : s.booked.cloudsFor d.environments = .ok clouds)
    {provisions : List Provision} (hprovisions : d.provisions cluster = .ok provisions)
    (inv : Invocation (Booked ω)) :
    ∃ (a : Allocating cluster d) (after : Invocation (Booked ω)),
      (s.booked.acquire cluster d).outcome inv = (.ok a.allocation, after) ∧
        after.books = inv.books.enter a.entries := by
  let requests := provisions.filterMap Provision.request?
  obtain ⟨launchJobs, hlaunchJobs⟩ := Errand.exists_jobs (e := Errand.launching) hclouds
    requests fun r hr =>
      ⟨r.environment, ClusterDescriptor.environment_of_request hprovisions hr, rfl⟩
  obtain ⟨volumeJobs, hvolumeJobs⟩ := Errand.exists_jobs (e := Errand.creating) hclouds
    (d.missingVolumes cluster requests) fun r hr =>
      ⟨r.environment, ClusterDescriptor.environment_of_missingVolume hr, rfl⟩
  obtain ⟨launches, hlaunches, hlaunchBooks⟩ :=
    Errand.inPool_served hclouds hlaunchJobs .launches inv
  obtain ⟨volumes, hvolumes, hvolumeBooks⟩ := Errand.inPool_served hclouds hvolumeJobs .volumes
    (s.booked.inPool .launches launchJobs inv).2
  refine ⟨⟨provisions, launches, volumes, _, _, hprovisions, hlaunches, hvolumes⟩,
    (s.booked.inPool .volumes volumeJobs (s.booked.inPool .launches launchJobs inv).2).2, ?_, ?_⟩
  · rw [acquire, Work.bind_ofExcept_of_ok hclouds, Work.bind_ofExcept_of_ok hprovisions]
    refine (Work.bind_ofExcept_of_ok hlaunchJobs _ _).trans ?_
    refine (Work.bind_ofExcept_of_ok hvolumeJobs _ _).trans ?_
    rw [Work.bind_ofAction, Work.bind_ofAction]
    rfl
  · rw [hvolumeBooks, hlaunchBooks, Books.enter_enter]
    rfl

theorem acquire_cases (s : Surroundings ω) (cluster : String) (d : ClusterDescriptor)
    (inv : Invocation (Booked ω)) :
    (∃ e, (s.booked.acquire cluster d).outcome inv = (.error e, inv)) ∨
      ∃ (a : Allocating cluster d) (after : Invocation (Booked ω)),
        (s.booked.acquire cluster d).outcome inv = (.ok a.allocation, after) ∧
          after.books = inv.books.enter a.entries := by
  cases hclouds : s.booked.cloudsFor d.environments with
  | error e =>
    rw [acquire]
    exact .inl ⟨_, Work.bind_ofExcept_of_error hclouds _ _⟩
  | ok clouds =>
    cases hprovisions : d.provisions cluster with
    | error e =>
      rw [acquire, Work.bind_ofExcept_of_ok hclouds]
      exact .inl ⟨_, Work.bind_ofExcept_of_error hprovisions _ _⟩
    | ok provisions => exact .inr (acquire_outcome hclouds hprovisions inv)

theorem allocate_outcome
    (hload : (s.booked.loadFor cluster (.allocate force)).outcome inv = (.ok d, inv))
    (hvalid : isValidClusterName d.clusterName = true)
    {clouds : Dict (Cloud (Booked ω))} (hclouds : s.booked.cloudsFor d.environments = .ok clouds)
    {provisions : List Provision} (hprovisions : d.provisions cluster = .ok provisions) :
    ∃ (a : Allocating cluster d) (late : Bool) (after : Invocation (Booked ω)),
      (s.booked.allocate cluster force).outcome inv = (a.answer, after) ∧
        after.books = (inv.books.enter a.entries).put late a.descriptor := by
  obtain ⟨a, mid, hacquire, hmid⟩ := acquire_outcome (s := s) hclouds hprovisions inv
  obtain ⟨late, after, hsave, hafter⟩ := save_outcome (s := s) (d := a.descriptor) hvalid mid
  refine ⟨a, late, after, ?_, by rw [hafter, hmid]⟩
  rw [allocate_eq, Work.bind_of_ok hload, Work.bind_of_ok hacquire]
  exact (Work.bind_of_ok hsave).trans (report_outcome a after)

/-- An allocation is refused and leaves the books as they are, or it goes through with its
attempts. -/
theorem allocate_cases (hnamed : inv.books.Named) :
    (∃ e, (s.booked.allocate cluster force).outcome inv = (.error e, inv)) ∨
      ∃ d, inv.books.find? cluster = some d ∧ d.state.allows (.allocate force) = true ∧
        ∃ (a : Allocating cluster d) (late : Bool) (after : Invocation (Booked ω)),
          (s.booked.allocate cluster force).outcome inv = (a.answer, after) ∧
            after.books = (inv.books.enter a.entries).put late a.descriptor := by
  rcases loadFor_cases (s := s) cluster (.allocate force) inv with ⟨e, he⟩ | ⟨d, hd, hallows, hload⟩
  · exact .inl ⟨e, Work.bind_of_error he⟩
  cases hclouds : s.booked.cloudsFor d.environments with
  | error e =>
    left
    rw [allocate, Work.bind_of_ok hload]
    exact ⟨_, Work.bind_ofExcept_of_error hclouds _ _⟩
  | ok clouds =>
    cases hprovisions : d.provisions cluster with
    | error e =>
      left
      rw [allocate, Work.bind_of_ok hload, Work.bind_ofExcept_of_ok hclouds]
      exact ⟨_, Work.bind_ofExcept_of_error hprovisions _ _⟩
    | ok provisions =>
      have hvalid : isValidClusterName d.clusterName = true := by
        rw [(hnamed cluster d hd).1]
        exact (hnamed cluster d hd).2
      exact .inr ⟨d, hd, hallows, allocate_outcome hload hvalid hclouds hprovisions⟩

end Surroundings

end BenchCluster
