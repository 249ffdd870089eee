import BenchCluster.Proofs.Journal.Allocate
import BenchCluster.Proofs.Journal.Barriers
import BenchCluster.Proofs.Journal.Clean
import BenchCluster.Proofs.Journal.Power

/-! # The order in which the jobs of a pool are done

A pool hands its results out by name. If no two of its jobs have the same name nothing can be told
of the order in which they were done, neither from the results nor from what an operation makes of
them.
-/

namespace BenchCluster

variable {ω α β ρ : Type}

theorem Work.outcome_bind_congr {x y : Work ω α} {f g : α → Work ω β} {inv : Invocation ω}
    (hfirst : x.outcome inv = y.outcome inv)
    (hrest : ∀ a mid, x.outcome inv = (.ok a, mid) → (f a).outcome mid = (g a).outcome mid) :
    (x >>= f).outcome inv = (y >>= g).outcome inv := by
  rcases Work.bind_cases x f inv with ⟨e, mid, hmid, houtcome⟩ | ⟨a, mid, hmid, houtcome⟩
  · rw [houtcome, Work.bind_of_error (hfirst.symm.trans hmid)]
  · rw [houtcome, Work.bind_of_ok (hfirst.symm.trans hmid), hrest a mid hmid]

theorem Work.eq_ok_of_ofExcept {x : Except OrchestratorError α} {inv mid : Invocation ω} {a : α}
    (h : (Work.ofExcept id x).outcome inv = (.ok a, mid)) : x = .ok a := by
  rw [Work.outcome_ofExcept] at h
  exact Fallible.mapError_eq_ok.1 (congrArg Prod.fst h)

namespace Surroundings

variable {s : Surroundings ω}

/-- The surroundings with another order in which jobs are done. -/
def arriving (s : Surroundings ω) (arrival : Pool → Arrival) : Surroundings ω :=
  { s with arrival := arrival }

/-- Results with different names are handed out alike in whatever order they have come in. -/
theorem sortResults_eq_of_perm {first second : List (JobResult α)} (h : first.Perm second)
    (hnames : (first.map Prod.fst).Nodup) : sortResults first = sortResults second := by
  have hsorted : ∀ results : List (JobResult α),
      (sortResults results).Pairwise fun a b => a.1 ≤ b.1 := fun results =>
    pairwise_mergeSort_of_key Prod.fst results
  have hperm : (sortResults first).Perm (sortResults second) :=
    (List.mergeSort_perm _ _).trans (h.trans (List.mergeSort_perm _ _).symm)
  refine hperm.eq_of_pairwise (fun a b ha hb hab hba => ?_) (hsorted first) (hsorted second)
  have ha' : a ∈ first := List.mem_mergeSort.1 ha
  have hb' : b ∈ first := h.mem_iff.2 (List.mem_mergeSort.1 hb)
  exact List.inj_on_of_nodup_map hnames ha' hb' (String.le_antisymm hab hba)

theorem runJob_eq (s : Surroundings ω) (job : Job ω α) (inv : Invocation ω) :
    s.runJob job inv =
      if s.interrupted (s.waited inv).outside then ((job.name, .error .interrupted), s.waited inv)
      else ((job.name, (job.run (s.waited inv)).1.mapError .cloud), (job.run (s.waited inv)).2) := by
  change (if s.interrupted (s.waited inv).outside then _ else _ : Action ω (JobResult α))
    (s.waited inv) = _
  split <;> rfl

theorem names_mapM_runJob (s : Surroundings ω) (jobs : List (Job ω α)) (inv : Invocation ω) :
    (jobs.mapM s.runJob inv).1.map Prod.fst = jobs.map Job.name := by
  induction jobs generalizing inv with
  | nil => rfl
  | cons job rest ih =>
    have hname : (s.runJob job inv).1.1 = job.name := by
      rw [runJob_eq]
      split <;> rfl
    rw [List.mapM_cons, List.map_cons, ← hname, ← ih (s.runJob job inv).2]
    rfl

/-- A pool of jobs with different names answers alike and leaves the same invocation whichever order
the jobs are done in; there is one result for each job. -/
theorem inPool_arriving (s : Surroundings ω) (first second : Pool → Arrival) (pool : Pool)
    {jobs : List (Job ω α)} (hnames : (jobs.map Job.name).Nodup) (inv : Invocation ω) :
    (s.arriving first).inPool pool jobs inv = (s.arriving second).inPool pool jobs inv ∧
      (((s.arriving first).inPool pool jobs inv).1.map Prod.fst).Perm (jobs.map Job.name) := by
  have harrive : ∀ arrival : Pool → Arrival, (s.arriving arrival).inPool pool jobs inv =
      (sortResults ((arrival pool).arrange (jobs.mapM s.runJob inv).1),
        (jobs.mapM s.runJob inv).2) := fun _ => rfl
  have hperm := (first pool).perm (jobs.mapM s.runJob inv).1
  have hrun := s.names_mapM_runJob jobs inv
  refine ⟨?_, ?_⟩
  · rw [harrive, harrive, sortResults_eq_of_perm
      (hperm.trans ((second pool).perm _).symm)]
    rwa [(hperm.map Prod.fst).nodup_iff, hrun]
  · rw [harrive, ← hrun]
    exact ((List.mergeSort_perm _ _).trans hperm).map Prod.fst

/-- Jobs that answer the same whatever has been done before them give the same results in whatever
order they are begun and done. -/
theorem inPool_of_answers (s : Surroundings ω) (first second : Pool → Arrival) (pool : Pool)
    {jobs begun : List (Job ω α)} {answer : Job ω α → Except OrchestratorError α}
    (hnames : (jobs.map Job.name).Nodup) (hbegun : begun.Perm jobs)
    (hanswer : ∀ job ∈ jobs, ∀ inv, (s.runJob job inv).1 = (job.name, answer job))
    (inv inv' : Invocation ω) :
    ((s.arriving first).inPool pool begun inv).1 = ((s.arriving second).inPool pool jobs inv').1 ∧
      ((s.arriving first).inPool pool begun inv).1.Perm
        (jobs.map fun job => (job.name, answer job)) := by
  have hrun : ∀ (l : List (Job ω α)) (inv : Invocation ω), l ⊆ jobs →
      (l.mapM s.runJob inv).1 = l.map fun job => (job.name, answer job) := by
    intro l
    induction l with
    | nil => exact fun _ _ => rfl
    | cons job rest ih =>
      intro inv hsub
      obtain ⟨hjob, hrest⟩ := List.cons_subset.1 hsub
      rw [List.mapM_cons, List.map_cons, ← hanswer job hjob inv, ← ih (s.runJob job inv).2 hrest]
      rfl
  have hresults : ∀ (arrival : Pool → Arrival) (l : List (Job ω α)) (inv : Invocation ω),
      ((s.arriving arrival).inPool pool l inv).1 =
        sortResults ((arrival pool).arrange (l.mapM s.runJob inv).1) := fun _ _ _ => rfl
  have hfirst : ((first pool).arrange (begun.mapM s.runJob inv).1).Perm
      (jobs.map fun job => (job.name, answer job)) := by
    rw [hrun begun inv hbegun.subset]
    exact ((first pool).perm _).trans (hbegun.map _)
  have hsecond : ((second pool).arrange (jobs.mapM s.runJob inv').1).Perm
      (jobs.map fun job => (job.name, answer job)) := by
    rw [hrun jobs inv' (List.Subset.refl _)]
    exact (second pool).perm _
  rw [hresults, hresults]
  refine ⟨sortResults_eq_of_perm (hfirst.trans hsecond.symm) ?_,
    (List.mergeSort_perm _ _).trans hfirst⟩
  rw [(hfirst.map Prod.fst).nodup_iff, List.map_map]
  exact hnames

end Surroundings

/-! ## Operations -/

namespace ClusterDescriptor

def launchRequests (d : ClusterDescriptor) (cluster : String) : List LaunchRequest :=
  match d.provisions cluster with
  | .ok provisions => provisions.filterMap Provision.request?
  | .error _ => []

/-- The names of the jobs that a pool has in an operation on a cluster with a descriptor. -/
def jobNames (d : ClusterDescriptor) (cluster : String) : Pool → List String
  | .launches => (d.launchRequests cluster).map LaunchRequest.name
  | .volumes => (d.missingVolumes cluster (d.launchRequests cluster)).map StorageRequest.label
  | .terminations => d.ownedMachines.map Machine.name
  | .destructions => d.sharedStorage.map Volume.id
  | .stops => d.stoppableMachines.map Machine.name
  | .starts => d.stoppableMachines.map Machine.name

end ClusterDescriptor

def Request.pools : Request → List Pool
  | .allocate _ => [.launches, .volumes]
  | .stop => [.stops]
  | .start => [.starts]
  | .clean => [.terminations, .destructions]
  | _ => []

theorem Errand.names_of_jobs {e : Errand ρ α} {clouds : Dict (Cloud ω)} {requests : List ρ}
    {jobs : List (Job ω α)} (h : requests.mapM (e.job clouds) = .ok jobs) :
    jobs.map Job.name = requests.map e.name := by
  have hall := Fallible.mapM_eq_ok.1 h
  clear h
  induction hall with
  | nil => rfl
  | cons hjob _ ih =>
    obtain ⟨cloud, -, rfl⟩ := Errand.job_eq_ok.1 hjob
    rw [List.map_cons, List.map_cons, ih]

namespace Surroundings

variable (s : Surroundings ω) (first second : Pool → Arrival) {inv : Invocation ω}
  {cluster : String}

/-- What is made of the results of a pool does not depend on the order either. -/
theorem outcome_inPool_arriving {e : Errand ρ α} {clouds : Dict (Cloud ω)} {requests : List ρ}
    {jobs : List (Job ω α)} (hjobs : requests.mapM (e.job clouds) = .ok jobs)
    (hnames : (requests.map e.name).Nodup) (pool : Pool)
    {f g : List (JobResult α) → Work ω β}
    (hrest : ∀ results mid, (f results).outcome mid = (g results).outcome mid) :
    (Work.ofAction ((s.arriving first).inPool pool jobs) >>= f).outcome inv =
      (Work.ofAction ((s.arriving second).inPool pool jobs) >>= g).outcome inv := by
  rw [← Errand.names_of_jobs hjobs] at hnames
  have hpool := (s.inPool_arriving first second pool hnames inv).1
  rw [Work.bind_ofAction, Work.bind_ofAction, hpool]
  exact hrest _ _

theorem outcome_loadFor_congr {operation : Operation} {f g : ClusterDescriptor → Work ω β}
    (h : ∀ d after mid, (s.load cluster).outcome inv = (.ok d, after) →
      (f d).outcome mid = (g d).outcome mid) :
    ((s.arriving first).loadFor cluster operation >>= f).outcome inv =
      ((s.arriving second).loadFor cluster operation >>= g).outcome inv := by
  simp only [loadFor, bind_assoc, pure_bind]
  refine Work.outcome_bind_congr rfl fun d after hload => ?_
  refine Work.outcome_bind_congr rfl fun _ _ _ => ?_
  exact Work.outcome_bind_congr rfl fun _ mid _ => h d after mid hload

theorem allocate_arriving (force : Bool)
    (hnames : ∀ d after, (s.load cluster).outcome inv = (.ok d, after) →
      ∀ pool ∈ [Pool.launches, .volumes], (d.jobNames cluster pool).Nodup) :
    ((s.arriving first).allocate cluster force).outcome inv =
      ((s.arriving second).allocate cluster force).outcome inv := by
  rw [allocate, allocate]
  refine outcome_loadFor_congr s first second fun d after mid hload => ?_
  obtain ⟨hlaunches, hvolumes⟩ := by simpa using hnames d after hload
  refine Work.outcome_bind_congr rfl fun clouds _ _ => ?_
  refine Work.outcome_bind_congr rfl fun provisions _ hprovisions => ?_
  have hrequests : d.launchRequests cluster = provisions.filterMap Provision.request? := by
    rw [ClusterDescriptor.launchRequests, Work.eq_ok_of_ofExcept hprovisions]
  simp only [ClusterDescriptor.jobNames, hrequests] at hlaunches hvolumes
  refine Work.outcome_bind_congr rfl fun launches _ hlaunchJobs => ?_
  refine Work.outcome_bind_congr rfl fun volumes _ hvolumeJobs => ?_
  refine outcome_inPool_arriving (e := Errand.launching) s first second
    (Work.eq_ok_of_ofExcept hlaunchJobs) hlaunches .launches fun launched mid => ?_
  exact outcome_inPool_arriving (e := Errand.creating) s first second
    (Work.eq_ok_of_ofExcept hvolumeJobs) hvolumes .volumes fun created mid => rfl

theorem clean_arriving
    (hnames : ∀ d after, (s.load cluster).outcome inv = (.ok d, after) →
      ∀ pool ∈ [Pool.terminations, .destructions], (d.jobNames cluster pool).Nodup) :
    ((s.arriving first).clean cluster).outcome inv =
      ((s.arriving second).clean cluster).outcome inv := by
  rw [clean_eq, clean_eq]
  refine outcome_loadFor_congr s first second fun d after mid hload => ?_
  obtain ⟨hmachines, hvolumes⟩ := by simpa using hnames d after hload
  refine Work.outcome_bind_congr rfl fun _ _ _ => ?_
  rw [tearDown, tearDown]
  refine Work.outcome_bind_congr rfl fun clouds _ _ => ?_
  refine Work.outcome_bind_congr rfl fun terminations _ hterminations => ?_
  refine outcome_inPool_arriving (e := Errand.terminating) s first second
    (Work.eq_ok_of_ofExcept hterminations) hmachines .terminations fun terminated mid => ?_
  refine Work.outcome_bind_congr rfl fun destructions _ hdestructions => ?_
  exact outcome_inPool_arriving (e := Errand.destroying) s first second
    (Work.eq_ok_of_ofExcept hdestructions) hvolumes .destructions fun destroyed mid => rfl

theorem stop_arriving
    (hnames : ∀ d after, (s.load cluster).outcome inv = (.ok d, after) →
      ∀ pool ∈ [Pool.stops], (d.jobNames cluster pool).Nodup) :
    ((s.arriving first).stop cluster).outcome inv =
      ((s.arriving second).stop cluster).outcome inv := by
  rw [stop_eq, stop_eq]
  refine outcome_loadFor_congr s first second fun d after mid hload => ?_
  refine Work.outcome_bind_congr ?_ fun _ _ _ => rfl
  rw [bringDown_eq, bringDown_eq]
  refine Work.outcome_bind_congr rfl fun _ _ _ => ?_
  rw [haltMachines, haltMachines]
  refine Work.outcome_bind_congr rfl fun clouds _ _ => ?_
  refine Work.outcome_bind_congr rfl fun jobs _ hjobs => ?_
  exact outcome_inPool_arriving (e := Errand.stopping) s first second
    (Work.eq_ok_of_ofExcept hjobs) (hnames d after hload .stops (by simp)) .stops
    fun results mid => rfl

theorem start_arriving
    (hnames : ∀ d after, (s.load cluster).outcome inv = (.ok d, after) →
      ∀ pool ∈ [Pool.starts], (d.jobNames cluster pool).Nodup) :
    ((s.arriving first).start cluster).outcome inv =
      ((s.arriving second).start cluster).outcome inv := by
  rw [start_eq, start_eq]
  refine outcome_loadFor_congr s first second fun d after mid hload => ?_
  refine Work.outcome_bind_congr rfl fun clouds _ _ => ?_
  refine Work.outcome_bind_congr rfl fun jobs _ hjobs => ?_
  exact outcome_inPool_arriving (e := Errand.starting) s first second
    (Work.eq_ok_of_ofExcept hjobs) (hnames d after hload .starts (by simp)) .starts
    fun results mid => rfl

theorem serve_arriving {request : Request} (hstages : request.stages = [request])
    (hnames : ∀ d after, (s.load cluster).outcome inv = (.ok d, after) →
      ∀ pool ∈ request.pools, (d.jobNames cluster pool).Nodup) :
    ((s.arriving first).serve cluster request).outcome inv =
      ((s.arriving second).serve cluster request).outcome inv := by
  cases request with
  | configure documents implementation force => rfl
  | allocate force =>
    exact Work.outcome_bind_congr (s.allocate_arriving first second force hnames) fun _ _ _ => rfl
  | make => rfl
  | install => rfl
  | stop => exact Work.outcome_bind_congr (s.stop_arriving first second hnames) fun _ _ _ => rfl
  | start => exact Work.outcome_bind_congr (s.start_arriving first second hnames) fun _ _ _ => rfl
  | clean => exact Work.outcome_bind_congr (s.clean_arriving first second hnames) fun _ _ _ => rfl
  | all documents implementation force => cases hstages

/-- The order in which jobs are done does not show. Jobs with different names have the same results,
one for each of them, in whatever order they come in; if what they answer does not depend on those
before them, also in whatever order they are begun. And an operation whose pools have jobs with
different names answers the same and leaves the same world, its store included. -/
theorem arrival_irrelevant :
    (∀ {α : Type} (pool : Pool) {jobs : List (Job ω α)} (inv : Invocation ω),
      (jobs.map Job.name).Nodup →
      (s.arriving first).inPool pool jobs inv = (s.arriving second).inPool pool jobs inv ∧
        (((s.arriving first).inPool pool jobs inv).1.map Prod.fst).Perm (jobs.map Job.name)) ∧
    (∀ {α : Type} (pool : Pool) {jobs begun : List (Job ω α)}
      {answer : Job ω α → Except OrchestratorError α} (inv inv' : Invocation ω),
      (jobs.map Job.name).Nodup → begun.Perm jobs →
      (∀ job ∈ jobs, ∀ inv, (s.runJob job inv).1 = (job.name, answer job)) →
      ((s.arriving first).inPool pool begun inv).1 = ((s.arriving second).inPool pool jobs inv').1 ∧
        ((s.arriving first).inPool pool begun inv).1.Perm
          (jobs.map fun job => (job.name, answer job))) ∧
    ∀ (cluster : String) (request : Request) (inv : Invocation ω), request.stages = [request] →
      (∀ d after, (s.load cluster).outcome inv = (.ok d, after) →
        ∀ pool ∈ request.pools, (d.jobNames cluster pool).Nodup) →
      ((s.arriving first).serve cluster request).outcome inv =
        ((s.arriving second).serve cluster request).outcome inv :=
  ⟨fun pool _ inv hnames => s.inPool_arriving first second pool hnames inv,
    fun pool _ _ _ inv inv' hnames hbegun hanswer =>
      s.inPool_of_answers first second pool hnames hbegun hanswer inv inv',
    fun _ _ _ hstages hnames => s.serve_arriving first second hstages hnames⟩

end Surroundings

def Arrival.reversed : Arrival := ⟨List.reverse, List.reverse_perm⟩

namespace Sample

def tierBooks : Books := Books.afterVentures (tierTurns.take 1)

theorem jobNames_tierBooks {inv after : Invocation (Booked Nat)} (hinv : inv.books = tierBooks)
    {d : ClusterDescriptor} (hload : (tiered.booked.load "c").outcome inv = (.ok d, after)) :
    d.jobNames "c" .launches = ["db_0", "front_0", "front_1"] ∧ d.jobNames "c" .volumes = [] := by
  have hd : tierBooks.find? "c" = some d := by
    rcases Surroundings.load_cases (s := tiered) "c" inv with ⟨e, he⟩ | ⟨d', hd', -, hd⟩
    · rw [he] at hload
      cases hload
    · rw [hd] at hload
      cases hload
      rw [← hinv, hd']
  have hnames : (tierBooks.find? "c").map (fun d =>
      (d.jobNames "c" .launches, d.jobNames "c" .volumes)) =
      some (["db_0", "front_0", "front_1"], []) := by
    cbv
  rw [hd] at hnames
  simpa using hnames

def nameJob (name : String) : Job Nat String := ⟨name, return .ok name⟩

end Sample

/-- Two jobs, and then the launches of three machines, are done in the opposite order. -/
theorem sample_arrival_reversed :
    let s := Sample.tiered
    let inv : Invocation Nat := { outside := 0 }
    let jobs := [Sample.nameJob "a", Sample.nameJob "b"]
    (s.arriving fun _ => .reversed).inPool .launches jobs inv =
        (s.arriving fun _ => .inOrder).inPool .launches jobs inv ∧
      ((s.arriving fun _ => .reversed).inPool .launches jobs.reverse inv).1 =
        ((s.arriving fun _ => .inOrder).inPool .launches jobs inv).1 ∧
      ((s.booked.arriving fun _ => .reversed).serve "c" (.allocate false)).outcome
          (inv.withBooks Sample.tierBooks) =
        ((s.booked.arriving fun _ => .inOrder).serve "c" (.allocate false)).outcome
          (inv.withBooks Sample.tierBooks) := by
  intro s inv jobs
  have hdistinct : (jobs.map Job.name).Nodup := by decide
  have hanswer : ∀ job ∈ jobs, ∀ inv, (s.runJob job inv).1 = (job.name, .ok job.name) := by
    simp only [jobs, List.forall_mem_cons]
    exact ⟨fun _ => rfl, fun _ => rfl, by simp⟩
  refine ⟨((s.arrival_irrelevant _ _).1 _ inv hdistinct).1,
    ((s.arrival_irrelevant _ _).2.1 _ inv inv hdistinct (List.reverse_perm _) hanswer).1,
    (s.booked.arrival_irrelevant _ _).2.2 "c" (.allocate false) _ rfl ?_⟩
  intro d after hload pool hpool
  obtain ⟨hlaunches, hvolumes⟩ := Sample.jobNames_tierBooks rfl hload
  rcases List.mem_pair.1 hpool with rfl | rfl
  · rw [hlaunches]
    decide
  · rw [hvolumes]
    decide

end BenchCluster
