import BenchCluster.Orchestrator.Power
import BenchCluster.Proofs.Journal.Pool

/-! # What stopping and starting enter in the books

Stopping stores the descriptor as down if nothing has failed. Starting stores the machines that
have come up, and the descriptor as ready if nothing has failed.
-/

namespace BenchCluster

variable {ω : Type}

/-- The starts of the machines of a descriptor, with the results that the pool has reported. -/
structure Starting (d : ClusterDescriptor) where
  attempts : List (Attempt Machine Machine)
  results : List (JobResult Machine)
  served : Errand.starting.Served d.environments d.stoppableMachines attempts results

namespace Starting

variable {d : ClusterDescriptor}

def entries (x : Starting d) : List JournalEntry := x.attempts.flatMap Errand.starting.entries

def descriptor (x : Starting d) : ClusterDescriptor := d.withStarted x.results

end Starting

theorem isEmpty_failuresOf {α : Type} (results : List (JobResult α)) :
    (failuresOf results).isEmpty = results.all fun r => r.2.isOk := by
  induction results with
  | nil => rfl
  | cons r results ih =>
    obtain ⟨name, result⟩ := r
    cases result with
    | ok v => simpa [failuresOf, Except.isOk, Except.toBool] using ih
    | error e => simp [failuresOf, Except.isOk, Except.toBool]

theorem Errand.Served.failuresOf_eq_nil_iff {ρ α : Type} {e : Errand ρ α}
    {environments : List Environment} {requests : List ρ} {attempts : List (Attempt ρ α)}
    {results : List (JobResult α)} (h : e.Served environments requests attempts results) :
    failuresOf results = [] ↔ ∀ a ∈ attempts, ∃ v, a.value? = some v := by
  rw [← List.isEmpty_iff, isEmpty_failuresOf, List.all_eq_true]
  constructor
  · intro hall a ha
    have hok := hall _ (h.results_perm.mem_iff.2 (List.mem_map_of_mem ha))
    exact Option.isSome_iff_exists.1 (a.isOk_result.symm.trans hok)
  · intro hall r hr
    obtain ⟨a, ha, rfl⟩ := List.mem_map.1 (h.results_perm.mem_iff.1 hr)
    obtain ⟨v, hv⟩ := hall a ha
    exact a.isOk_result.trans (by rw [hv]; rfl)

namespace Surroundings

variable {s : Surroundings ω} {cluster : String} {inv : Invocation (Booked ω)}

def bringDown (s : Surroundings ω) (d : ClusterDescriptor) : Work ω Unit := do
  let (_, roles) ← Work.ofExcept id (s.rolesOf d)
  runPhase .stop Role.stop roles
  s.checkInterrupted
  let clouds ← Work.ofExcept id (s.cloudsFor d.environments)
  let jobs ← Work.ofExcept id (d.stoppableMachines.mapM (stopJob clouds))
  let results ← Work.ofAction (s.inPool .stops jobs)
  let failures := failuresOf results
  if !failures.isEmpty then throw (.phaseFailed .stop failures)

theorem stop_eq (s : Surroundings ω) (cluster : String) :
    s.stop cluster = (do
      let d ← s.loadFor cluster .stop
      s.bringDown d
      let after := { d with state := .down }
      s.save after
      return after) := by
  rw [stop]
  congr 1
  funext d
  rw [bringDown, bind_assoc]
  congr 1
  funext built
  obtain ⟨tree, roles⟩ := built
  simp only [bind_assoc]
  refine bind_congr fun _ => bind_congr fun _ => bind_congr fun clouds => bind_congr fun jobs =>
    bind_congr fun results => ?_
  split
  · rfl
  · rfl

def restRoles (s : Surroundings ω) (d : ClusterDescriptor) : Work ω Unit := do
  let (_, roles) ← Work.ofExcept id (s.rolesOf d)
  runPhase .stop Role.stop roles
  s.checkInterrupted

def haltMachines (s : Surroundings ω) (d : ClusterDescriptor) : Work ω Unit := do
  let clouds ← Work.ofExcept id (s.cloudsFor d.environments)
  let jobs ← Work.ofExcept id (d.stoppableMachines.mapM (stopJob clouds))
  let results ← Work.ofAction (s.inPool .stops jobs)
  let failures := failuresOf results
  if !failures.isEmpty then throw (.phaseFailed .stop failures)

theorem bringDown_eq (s : Surroundings ω) (d : ClusterDescriptor) :
    s.bringDown d = (do
      s.restRoles d
      s.haltMachines d) := by
  rw [bringDown, restRoles, bind_assoc]
  congr 1
  funext built
  obtain ⟨tree, roles⟩ := built
  simp only [bind_assoc]
  rfl

theorem enters_restRoles (s : Surroundings ω) (d : ClusterDescriptor) :
    Enters (fun c => c.isRole = true) (s.booked.restRoles d).outcome := by
  refine Enters.bind_ofExcept fun built hbuilt => ?_
  obtain ⟨tree, roles⟩ := built
  have hstop := enters_runPhase (s := s) (P := fun c => c.isRole = true) .stop Role.stop
    (implementation_of_rolesOf hbuilt) fun context r => by
      change Enters _ (s.journaled (fun a => .role context (.stop a)) r.stop)
      exact Enters.journaled fun _ => rfl
  exact Enters.work_bind hstop fun _ => Enters.checkInterrupted _

theorem haltMachines_cases (s : Surroundings ω) (d : ClusterDescriptor)
    (inv : Invocation (Booked ω)) :
    (∃ e, (s.booked.haltMachines d).outcome inv = (.error e, inv)) ∨
      ∃ attempts results after,
        Errand.stopping.Served d.environments d.stoppableMachines attempts results ∧
        (s.booked.haltMachines d).outcome inv = (if failuresOf results = [] then .ok ()
          else .error (.phaseFailed .stop (failuresOf results)), after) ∧
        after.books = inv.books.enter (List.flatMap Errand.stopping.entries attempts) := by
  rw [haltMachines]
  cases hclouds : s.booked.cloudsFor d.environments with
  | error e => exact .inl ⟨e, rfl⟩
  | ok clouds =>
    rw [Work.bind_ofExcept_of_ok rfl]
    cases hjobs : d.stoppableMachines.mapM (Errand.stopping.job clouds) with
    | error e => exact .inl ⟨e, Work.bind_ofExcept_of_error hjobs _ _⟩
    | ok jobs =>
      obtain ⟨attempts, hserved, hbooks⟩ := Errand.inPool_served hclouds hjobs .stops inv
      refine .inr ⟨attempts, _, _, hserved, ?_, hbooks⟩
      refine (Work.bind_ofExcept_of_ok hjobs _ _).trans ?_
      rw [Work.bind_ofAction]
      by_cases hfailures : failuresOf (s.booked.inPool .stops jobs inv).1 = []
      · rw [if_pos hfailures]
        simp only [hfailures]
        rfl
      · rw [if_neg hfailures, if_pos (by simpa using hfailures)]
        rfl

theorem enters_bringDown (s : Surroundings ω) (d : ClusterDescriptor) :
    Enters (fun c => c.isInert = true) (s.booked.bringDown d).outcome := by
  rw [bringDown_eq]
  have hrest := (enters_restRoles s d).imp fun c hc => OutsideCall.isInert_of_isRole hc
  refine Enters.work_bind hrest fun _ inv => ?_
  rcases haltMachines_cases s d inv with ⟨e, he⟩ | ⟨attempts, results, after, -, houtcome, hafter⟩
  · rw [he]
    exact ⟨[], by simp, (Books.enter_nil _).symm⟩
  · rw [houtcome]
    refine ⟨_, fun x hx => ?_, hafter⟩
    obtain ⟨a, -, r, -, rfl⟩ := Errand.mem_flatMap_entries hx
    rfl

/-- A stop fails before it asks for anything, or after stops of roles at most, or it attempts to
stop all instances. The descriptor is stored as down if none of them has failed. -/
theorem stop_falls (hnamed : inv.books.Named) :
    (∃ e, (s.booked.stop cluster).outcome inv = (.error e, inv)) ∨
      ∃ d steps after, inv.books.find? cluster = some d ∧ d.state.allows .stop = true ∧
        (∀ x ∈ steps, x.call.isRole = true) ∧
        ((∃ e, (s.booked.stop cluster).outcome inv = (.error e, after) ∧
            after.books = inv.books.enter steps) ∨
          ∃ attempts results,
            Errand.stopping.Served d.environments d.stoppableMachines attempts results ∧
            let calls := steps ++ List.flatMap Errand.stopping.entries attempts
            ((failuresOf results ≠ [] ∧ (s.booked.stop cluster).outcome inv =
                (.error (.phaseFailed .stop (failuresOf results)), after) ∧
              after.books = inv.books.enter calls) ∨
            (failuresOf results = [] ∧ (s.booked.stop cluster).outcome inv =
                (.ok { d with state := .down }, after) ∧
              ∃ late, after.books =
                (inv.books.enter calls).put late { d with state := .down }))) := by
  rw [stop_eq]
  rcases loadFor_cases (s := s) cluster .stop inv with ⟨e, he⟩ | ⟨d, hd, hallows, hload⟩
  · exact .inl ⟨e, Work.bind_of_error he⟩
  rw [Work.bind_of_ok hload, bringDown_eq, bind_assoc]
  obtain ⟨hname, hvalid⟩ := hnamed cluster d hd
  rcases Enters.bind_cases (enters_restRoles s d) _ inv with
    ⟨e, after, steps, hsteps, houtcome, hafter⟩ | ⟨_, mid, steps, hsteps, -, hmid, hrest⟩
  · exact .inr ⟨d, steps, after, hd, hallows, hsteps, .inl ⟨e, houtcome, hafter⟩⟩
  rw [hrest]
  rcases haltMachines_cases s d mid with
    ⟨e, he⟩ | ⟨attempts, results, after, hserved, houtcome, hafter⟩
  · exact .inr ⟨d, steps, mid, hd, hallows, hsteps, .inl ⟨e, Work.bind_of_error he, hmid⟩⟩
  rw [hmid, Books.enter_enter] at hafter
  by_cases hfailures : failuresOf results = []
  · rw [if_pos hfailures] at houtcome
    obtain ⟨late, last, hsave, hlast⟩ := save_outcome (s := s) (d := { d with state := .down })
      (hname ▸ hvalid) after
    refine .inr ⟨d, steps, last, hd, hallows, hsteps, .inr ⟨attempts, results, hserved,
      .inr ⟨hfailures, ?_, late, by rw [hlast, hafter]⟩⟩⟩
    rw [Work.bind_of_ok houtcome]
    exact (Work.bind_of_ok hsave).trans rfl
  · rw [if_neg hfailures] at houtcome
    exact .inr ⟨d, steps, after, hd, hallows, hsteps, .inr ⟨attempts, results, hserved,
      .inl ⟨hfailures, Work.bind_of_error houtcome, hafter⟩⟩⟩

/-- A stop fails after calls of roles and stops of instances, or it stores the descriptor as
down. -/
theorem stop_cases (hnamed : inv.books.Named) :
    Failed (fun c => c.isInert = true) inv ((s.booked.stop cluster).outcome inv) ∨
      ∃ d late after entries, inv.books.find? cluster = some d ∧ d.state.allows .stop = true ∧
        (∀ x ∈ entries, x.call.isInert = true) ∧
        (s.booked.stop cluster).outcome inv = (.ok { d with state := .down }, after) ∧
        after.books = (inv.books.enter entries).put late { d with state := .down } := by
  rcases stop_falls hnamed with ⟨e, he⟩ | ⟨d, steps, after, hd, hallows, hsteps, hcases⟩
  · exact .inl (.at_once he)
  have hinert : ∀ x ∈ steps, x.call.isInert = true := fun x hx =>
    OutsideCall.isInert_of_isRole (hsteps x hx)
  rcases hcases with ⟨e, houtcome, hafter⟩ | ⟨attempts, results, hserved, hcases⟩
  · exact .inl ⟨e, after, steps, hinert, houtcome, hafter⟩
  have hcalls : ∀ x ∈ steps ++ List.flatMap Errand.stopping.entries attempts,
      x.call.isInert = true := by
    intro x hx
    rcases List.mem_append.1 hx with hx | hx
    · exact hinert x hx
    · obtain ⟨a, -, r, -, rfl⟩ := Errand.mem_flatMap_entries hx
      rfl
  rcases hcases with ⟨-, houtcome, hafter⟩ | ⟨-, houtcome, late, hafter⟩
  · exact .inl ⟨_, after, _, hcalls, houtcome, hafter⟩
  · exact .inr ⟨d, late, after, _, hd, hallows, hcalls, houtcome, hafter⟩

def wakeRoles (s : Surroundings ω) (d : ClusterDescriptor) : Work ω Unit := do
  s.checkInterrupted
  let (_, roles) ← Work.ofExcept id (s.rolesOf d)
  runPhase .start Role.start roles

/-- What is done once the instances have been started. -/
def rise (s : Surroundings ω) (d : ClusterDescriptor) (failures : List String) :
    Work ω ClusterDescriptor := do
  if !failures.isEmpty then do
    s.save d
    throw (.phaseFailed .start failures)
  else do
    s.wakeRoles d
    s.save { d with state := .ready }
    return { d with state := .ready }

theorem start_eq (s : Surroundings ω) (cluster : String) :
    s.start cluster = (do
      let d ← s.loadFor cluster .start
      let clouds ← Work.ofExcept id (s.cloudsFor d.environments)
      let jobs ← Work.ofExcept id (d.stoppableMachines.mapM (startJob clouds))
      let results ← Work.ofAction (s.inPool .starts jobs)
      s.rise (d.withStarted results) (failuresOf results)) := by
  rw [start]
  refine bind_congr fun d => bind_congr fun clouds => bind_congr fun jobs =>
    bind_congr fun results => ?_
  rw [rise]
  dsimp only
  split
  · rfl
  · rw [wakeRoles]
    simp only [bind_assoc]

theorem enters_wakeRoles (s : Surroundings ω) (d : ClusterDescriptor) :
    Enters (fun c => c.isRole = true) (s.booked.wakeRoles d).outcome := by
  refine Enters.work_bind (Enters.checkInterrupted _) fun _ => ?_
  refine Enters.bind_ofExcept fun built hbuilt => ?_
  obtain ⟨tree, roles⟩ := built
  refine enters_runPhase .start Role.start (implementation_of_rolesOf hbuilt) fun context r => ?_
  change Enters _ (s.journaled (fun a => .role context (.start a)) r.start)
  exact Enters.journaled fun _ => rfl

/-- Once the instances have been started, what has come up is stored: as it is if an instance has
failed, and as ready if the roles have been started as well. -/
theorem rise_cases {d : ClusterDescriptor} (hvalid : isValidClusterName d.clusterName = true)
    (failures : List String) (inv : Invocation (Booked ω)) :
    ∃ after steps, (∀ y ∈ steps, y.call.isRole = true) ∧
      ((failures = [] ∧ ∃ e, (s.booked.rise d failures).outcome inv = (.error e, after) ∧
          after.books = inv.books.enter steps) ∨
        (failures ≠ [] ∧ (s.booked.rise d failures).outcome inv =
            (.error (.phaseFailed .start failures), after) ∧
          ∃ late, after.books = (inv.books.enter steps).put late d) ∨
        (failures = [] ∧ (s.booked.rise d failures).outcome inv =
            (.ok { d with state := .ready }, after) ∧
          ∃ late, after.books = (inv.books.enter steps).put late { d with state := .ready })) := by
  rw [rise]
  by_cases hfailures : failures = []
  · rw [if_neg (by simp [hfailures])]
    rcases Enters.bind_cases (enters_wakeRoles s d) (fun _ => do
        s.booked.save { d with state := .ready }
        return { d with state := .ready }) inv with
      ⟨e, after, steps, hsteps, houtcome, hafter⟩ | ⟨_, mid, steps, hsteps, -, hmid, hrest⟩
    · exact ⟨after, steps, hsteps, .inl ⟨hfailures, e, houtcome, hafter⟩⟩
    · obtain ⟨late, after, hsave, hafter⟩ := save_outcome (s := s) (d := { d with state := .ready })
        hvalid mid
      refine ⟨after, steps, hsteps, .inr (.inr ⟨hfailures, ?_, late, ?_⟩)⟩
      · rw [hrest]
        exact (Work.bind_of_ok hsave).trans rfl
      · rw [hafter, hmid]
  · rw [if_pos (by simpa using hfailures)]
    obtain ⟨late, after, hsave, hafter⟩ := save_outcome (s := s) hvalid inv
    refine ⟨after, [], by simp, .inr (.inl ⟨hfailures, ?_, late, ?_⟩)⟩
    · exact (Work.bind_of_ok hsave).trans rfl
    · rw [hafter, Books.enter_nil]

/-- A start fails before it asks for anything, or it attempts to start all instances. What has come
up is stored if an instance has failed, and as ready if the roles have been started as well; if only
the roles have failed nothing is stored. -/
theorem start_rises (hnamed : inv.books.Named) :
    (∃ e, (s.booked.start cluster).outcome inv = (.error e, inv)) ∨
      ∃ (d : ClusterDescriptor) (x : Starting d) (after : Invocation (Booked ω))
        (steps : List JournalEntry),
        inv.books.find? cluster = some d ∧ d.state.allows .start = true ∧
        (∀ y ∈ steps, y.call.isRole = true) ∧
        ((failuresOf x.results = [] ∧ ∃ e, (s.booked.start cluster).outcome inv =
            (.error e, after) ∧ after.books = inv.books.enter (x.entries ++ steps)) ∨
        (failuresOf x.results ≠ [] ∧ (s.booked.start cluster).outcome inv =
            (.error (.phaseFailed .start (failuresOf x.results)), after) ∧
          ∃ late, after.books = (inv.books.enter (x.entries ++ steps)).put late x.descriptor) ∨
        (failuresOf x.results = [] ∧ (s.booked.start cluster).outcome inv =
            (.ok { x.descriptor with state := .ready }, after) ∧
          ∃ late, after.books = (inv.books.enter (x.entries ++ steps)).put late
            { x.descriptor with state := .ready })) := by
  rw [start_eq]
  rcases loadFor_cases (s := s) cluster .start inv with ⟨e, he⟩ | ⟨d, hd, hallows, hload⟩
  · exact .inl ⟨e, Work.bind_of_error he⟩
  rw [Work.bind_of_ok hload]
  cases hclouds : s.booked.cloudsFor d.environments with
  | error e => exact .inl ⟨e, rfl⟩
  | ok clouds =>
    rw [Work.bind_ofExcept_of_ok rfl]
    cases hjobs : d.stoppableMachines.mapM (Errand.starting.job clouds) with
    | error e =>
      exact .inl ⟨e, Work.bind_ofExcept_of_error hjobs _ _⟩
    | ok jobs =>
      obtain ⟨hname, hvalid⟩ := hnamed cluster d hd
      obtain ⟨attempts, hserved, hbooks⟩ := Errand.inPool_served hclouds hjobs .starts inv
      let x : Starting d := ⟨attempts, _, hserved⟩
      rw [Errand.startJob_eq, Work.bind_ofExcept_of_ok hjobs, Work.bind_ofAction]
      obtain ⟨after, steps, hsteps, hcases⟩ := rise_cases (s := s) (d := x.descriptor)
        (hname ▸ hvalid) (failuresOf x.results) (s.booked.inPool .starts jobs inv).2
      rw [hbooks, Books.enter_enter] at hcases
      exact .inr ⟨d, x, after, steps, hd, hallows, hsteps, hcases⟩

/-- A start that stores a descriptor stores the machines that have come up, with the state as it
was if one of them has not, and as ready if all of the start has succeeded. -/
theorem start_cases (hnamed : inv.books.Named) :
    Failed (fun c => c.isInert = true) inv ((s.booked.start cluster).outcome inv) ∨
      ∃ (d : ClusterDescriptor) (x : Starting d) (late : Bool) (after : Invocation (Booked ω))
        (steps : List JournalEntry),
        inv.books.find? cluster = some d ∧ d.state.allows .start = true ∧
        (∀ y ∈ steps, y.call.isInert = true) ∧
        ((failuresOf x.results ≠ [] ∧ (s.booked.start cluster).outcome inv =
            (.error (.phaseFailed .start (failuresOf x.results)), after) ∧
          after.books = (inv.books.enter (x.entries ++ steps)).put late x.descriptor) ∨
        (failuresOf x.results = [] ∧ (s.booked.start cluster).outcome inv =
            (.ok { x.descriptor with state := .ready }, after) ∧
          after.books = (inv.books.enter (x.entries ++ steps)).put late
            { x.descriptor with state := .ready })) := by
  rcases start_rises hnamed with ⟨e, he⟩ | ⟨d, x, after, steps, hd, hallows, hsteps, hcases⟩
  · exact .inl (.at_once he)
  have hinert : ∀ y ∈ steps, y.call.isInert = true := fun y hy =>
    OutsideCall.isInert_of_isRole (hsteps y hy)
  rcases hcases with ⟨-, e, houtcome, hafter⟩ | ⟨hfailures, houtcome, late, hafter⟩ |
    ⟨hfailures, houtcome, late, hafter⟩
  · refine .inl ⟨e, after, _, fun y hy => ?_, houtcome, hafter⟩
    rcases List.mem_append.1 hy with hy | hy
    · obtain ⟨a, -, r, -, rfl⟩ := Errand.mem_flatMap_entries hy
      rfl
    · exact hinert y hy
  · exact .inr ⟨d, x, late, after, steps, hd, hallows, hinert, .inl ⟨hfailures, houtcome, hafter⟩⟩
  · exact .inr ⟨d, x, late, after, steps, hd, hallows, hinert, .inr ⟨hfailures, houtcome, hafter⟩⟩

end Surroundings

end BenchCluster
