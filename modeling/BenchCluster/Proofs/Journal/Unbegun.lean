import BenchCluster.Proofs.Descriptor.Accounted
import BenchCluster.Proofs.Descriptor.Consistent
import BenchCluster.Proofs.Journal.Heeded
import BenchCluster.Proofs.Journal.Lifecycle

/-! # Jobs that were begun, and jobs that were not

Every operation says of which of its jobs nothing has come, and keeps in the stored descriptor what
there was and what it has obtained, as far as it has not been taken down.
-/

namespace BenchCluster

variable {ω ρ α : Type}

/-! ## What is owed -/

namespace ClusterDescriptor

def wantedLaunches (d : ClusterDescriptor) (cluster : String) : List LaunchRequest :=
  match d.provisions cluster with
  | .ok provisions => provisions.filterMap Provision.request?
  | .error _ => []

end ClusterDescriptor

def Request.jobs (cluster : String) (d : ClusterDescriptor) : Request → List PoolJob
  | .allocate _ =>
    (d.wantedLaunches cluster).map .launch ++ (d.wantedVolumes cluster).map .create
  | .stop => d.stoppableMachines.map .stop
  | .start => d.stoppableMachines.map .start
  | .clean => d.ownedMachines.map .terminate ++ d.sharedStorage.map .destroy
  | _ => []

def PoolJob.label : PoolJob → String
  | .launch r => r.name
  | .create r => r.label
  | .terminate m => m.name
  | .destroy v => v.name
  | .stop m => m.name ++ ": " ++ OrchestratorError.interrupted.message
  | .start m => m.name ++ ": " ++ OrchestratorError.interrupted.message

/-- What an error says has failed. -/
def OrchestratorError.failures : OrchestratorError → List String
  | .allocationFailed _ failed => failed
  | .phaseFailed _ failures => failures
  | .cleanupFailed _ remaining => remaining
  | _ => []

/-- An operation ends before its pools: it has only called roles. If it ends because the user has
asked to stop, it has not even done that, unless it is a stop. -/
structure Unreached (request : Request) (e : OrchestratorError) (calls : List JournalEntry) :
    Prop where
  roles : ∀ x ∈ calls, x.call.isRole = true
  interrupted : e = .interrupted → calls = [] ∨ request = .stop

/-- If a job of an operation was not begun, the operation fails; it names the job, unless it ends
before its pools. -/
def Candid (cluster : String) (request : Request)
    (answer : Except OrchestratorError (Option ClusterDescriptor)) (d : ClusterDescriptor)
    (calls : List JournalEntry) : Prop :=
  ∀ job ∈ request.jobs cluster d, (∀ x ∈ calls, x.call.job? ≠ some job) →
    ∃ e, answer = .error e ∧ (job.label ∈ e.failures ∨ Unreached request e calls)

/-- A machine is a member under its key still, as it was or as a start has answered with it. -/
def ClusterDescriptor.Keeps (d : ClusterDescriptor) (calls : List JournalEntry) (key : String)
    (m : Machine) : Prop :=
  ∃ kept, d.members.find? key = some kept ∧
    (kept = m ∨ ∃ x ∈ calls, ∃ env, x.call = .startMachine env m (.ok kept))

theorem ClusterDescriptor.Keeps.append {d : ClusterDescriptor} {calls : List JournalEntry}
    {key : String} {m : Machine} (h : d.Keeps calls key m) (more : List JournalEntry) :
    d.Keeps (calls ++ more) key m := by
  obtain ⟨kept, hkept, hcases⟩ := h
  exact ⟨kept, hkept, hcases.imp id fun ⟨x, hx, hcall⟩ => ⟨x, List.mem_append_left _ hx, hcall⟩⟩

/-- What there was and no job was begun to take down is in the stored descriptor of the cluster
afterwards, and so is what was launched and created. -/
structure Retains (cluster : String) (b b' : Books) (calls : List JournalEntry) : Prop where
  machines : ∀ d, b.find? cluster = some d → ∀ key m, d.members.find? key = some m →
    m.isOwned = true → (∀ x ∈ calls, x.call.job? ≠ some (.terminate m)) →
      ∃ after, b'.find? cluster = some after ∧ after.Keeps calls key m
  volumes : ∀ d, b.find? cluster = some d → ∀ v ∈ d.sharedStorage,
    (∀ x ∈ calls, x.call.job? ≠ some (.destroy v)) →
      ∃ after, b'.find? cluster = some after ∧ v ∈ after.sharedStorage
  launched : ∀ x ∈ calls, ∀ env r m, x.call = .launch env r (.ok (some m)) →
    ∃ after, b'.find? cluster = some after ∧ after.members.find? m.name = some m
  created : ∀ x ∈ calls, ∀ env r v, x.call = .createVolume env r (.ok v) →
    ∃ after, b'.find? cluster = some after ∧ v ∈ after.sharedStorage

/-- An operation is candid about its jobs and retains what there is. -/
def Salvages (cluster : String) (request : Request)
    (answer : Except OrchestratorError (Option ClusterDescriptor)) (b b' : Books) : Prop :=
  ∃ calls, b'.journal = b.journal ++ calls ∧
    (∀ d, b.find? cluster = some d → Candid cluster request answer d calls) ∧
    Retains cluster b b' calls

/-! ## Operations that bring nothing -/

theorem Books.journal_enter_put (b : Books) (entries : List JournalEntry) (late : Bool)
    (d : ClusterDescriptor) : ((b.enter entries).put late d).journal =
      b.journal ++ (entries ++ [⟨late, .saved d⟩]) := by
  simp

def OutsideCall.isAcquisition : OutsideCall → Bool
  | .launch .. => true
  | .createVolume .. => true
  | _ => false

theorem OutsideCall.isAcquisition_of_isWrite {c : OutsideCall} (h : c.isWrite = true) :
    c.isAcquisition = false := by
  cases c <;> first | rfl | cases h

theorem OutsideCall.isAcquisition_of_isInert {c : OutsideCall} (h : c.isInert = true) :
    c.isAcquisition = false := by
  cases c <;> simp_all [isInert, isAcquisition]

namespace Retains

variable {cluster : String} {b b' : Books} {calls : List JournalEntry}

theorem of_quiet (hquiet : ∀ x ∈ calls, x.call.isAcquisition = false)
    (hstays : ∀ d, b.find? cluster = some d →
      (∀ key m, d.members.find? key = some m → m.isOwned = true →
        (∀ x ∈ calls, x.call.job? ≠ some (.terminate m)) →
          ∃ after, b'.find? cluster = some after ∧ after.Keeps calls key m) ∧
      ∀ v ∈ d.sharedStorage, (∀ x ∈ calls, x.call.job? ≠ some (.destroy v)) →
        ∃ after, b'.find? cluster = some after ∧ v ∈ after.sharedStorage) :
    Retains cluster b b' calls where
  machines := fun d hd => (hstays d hd).1
  volumes := fun d hd => (hstays d hd).2
  launched := by
    intro x hx env r m hcall
    have hnone := hquiet x hx
    rw [hcall] at hnone
    cases hnone
  created := by
    intro x hx env r v hcall
    have hnone := hquiet x hx
    rw [hcall] at hnone
    cases hnone

theorem of_kept (hquiet : ∀ x ∈ calls, x.call.isAcquisition = false)
    (hkept : ∀ d, b.find? cluster = some d → ∃ after, b'.find? cluster = some after ∧
      (∀ key m, d.members.find? key = some m → after.Keeps calls key m) ∧
        after.sharedStorage = d.sharedStorage) :
    Retains cluster b b' calls := by
  refine of_quiet hquiet fun d hd => ?_
  obtain ⟨after, hafter, hmembers, hvolumes⟩ := hkept d hd
  exact ⟨fun key m hm _ _ => ⟨after, hafter, hmembers key m hm⟩,
    fun v hv _ => ⟨after, hafter, hvolumes ▸ hv⟩⟩

theorem of_enter (b : Books) (hquiet : ∀ x ∈ calls, x.call.isAcquisition = false) :
    Retains cluster b (b.enter calls) calls :=
  of_kept hquiet fun d hd => ⟨d, hd, fun _ m hm => ⟨m, hm, .inl rfl⟩, rfl⟩

theorem of_put {d after : ClusterDescriptor} {entries : List JournalEntry} {late : Bool}
    (hd : b.find? cluster = some d) (hname : after.clusterName = cluster)
    (hquiet : ∀ x ∈ entries, x.call.isAcquisition = false)
    (hmembers : ∀ key m, d.members.find? key = some m → after.Keeps entries key m)
    (hvolumes : after.sharedStorage = d.sharedStorage) :
    Retains cluster b ((b.enter entries).put late after) (entries ++ [⟨late, .saved after⟩]) := by
  refine of_kept (fun x hx => ?_) fun d' hd' => ⟨after, ?_, fun key m hm => ?_, ?_⟩
  · rcases List.mem_append.1 hx with hx | hx
    · exact hquiet x hx
    · rw [List.mem_singleton.1 hx]
      rfl
  · rw [Books.find?_put, if_pos hname]
  · rw [hd, Option.some.injEq] at hd'
    subst hd'
    exact (hmembers key m hm).append _
  · rw [hd, Option.some.injEq] at hd'
    rw [hvolumes, hd']

end Retains

namespace Candid

variable {cluster : String} {request : Request} {d : ClusterDescriptor} {calls : List JournalEntry}

/-- An operation that fails is candid if it names the jobs that were not begun. -/
theorem of_failures {e : OrchestratorError} (h : ∀ job ∈ request.jobs cluster d,
    (∀ x ∈ calls, x.call.job? ≠ some job) → job.label ∈ e.failures) :
    Candid cluster request (.error e) d calls :=
  fun job hjob hunbegun => ⟨e, rfl, .inl (h job hjob hunbegun)⟩

/-- An operation without failures is candid if it would have named the jobs that were not begun. -/
theorem of_no_failures {answer : Except OrchestratorError (Option ClusterDescriptor)}
    {failures : List String} (hnone : failures = []) (h : ∀ job ∈ request.jobs cluster d,
      (∀ x ∈ calls, x.call.job? ≠ some job) → job.label ∈ failures) :
    Candid cluster request answer d calls := by
  intro job hjob hunbegun
  have hmem := h job hjob hunbegun
  rw [hnone] at hmem
  cases hmem

end Candid

namespace Salvages

variable {cluster : String} {request : Request} {b : Books}

theorem of_find? {answer : Except OrchestratorError (Option ClusterDescriptor)} {b' : Books}
    {calls : List JournalEntry} {d : ClusterDescriptor} (hd : b.find? cluster = some d)
    (hgrows : b'.journal = b.journal ++ calls) (hcandid : Candid cluster request answer d calls)
    (hretains : Retains cluster b b' calls) : Salvages cluster request answer b b' := by
  refine ⟨calls, hgrows, fun d' hd' => ?_, hretains⟩
  rw [hd, Option.some.injEq] at hd'
  rwa [← hd']

theorem refused (e : OrchestratorError) : Salvages cluster request (.error e) b b := by
  refine ⟨[], (List.append_nil _).symm, fun d _ job _ _ => ?_, ?_⟩
  · exact ⟨e, rfl, .inr ⟨by simp, fun _ => .inl rfl⟩⟩
  · have h : Retains cluster b (b.enter []) [] := .of_enter b (by simp)
    rwa [Books.enter_nil] at h

theorem of_jobless {answer : Except OrchestratorError (Option ClusterDescriptor)} {b' : Books}
    {calls : List JournalEntry} (hjobless : ∀ d, request.jobs cluster d = [])
    (hgrows : b'.journal = b.journal ++ calls) (hretains : Retains cluster b b' calls) :
    Salvages cluster request answer b b' := by
  refine ⟨calls, hgrows, fun d _ job hjob => ?_, hretains⟩
  rw [hjobless] at hjob
  cases hjob

theorem of_inert {answer : Except OrchestratorError (Option ClusterDescriptor)}
    {calls : List JournalEntry} (hjobless : ∀ d, request.jobs cluster d = [])
    (hinert : ∀ x ∈ calls, x.call.isInert = true) :
    Salvages cluster request answer b (b.enter calls) :=
  of_jobless hjobless rfl
    (.of_enter b fun x hx => OutsideCall.isAcquisition_of_isInert (hinert x hx))

end Salvages

/-! ## Pools -/

namespace Errand

variable {e : Errand ρ α} {environments : List Environment} {requests : List ρ}
  {attempts : List (Attempt ρ α)} {results : List (JobResult α)}

/-- A request whose job is not among the calls has an attempt that was not begun. -/
theorem Served.exists_unbegun (h : e.Served environments requests attempts results)
    {calls : List JournalEntry} (hcalls : ∀ x ∈ attempts.flatMap e.entries, x ∈ calls)
    (job : ρ → PoolJob) (hjob : ∀ env r answer, (e.call env r answer).job? = some (job r)) {r : ρ}
    (hr : r ∈ requests) (hunbegun : ∀ x ∈ calls, x.call.job? ≠ some (job r)) :
    ∃ a ∈ attempts, a.request = r ∧ a.answer = none := by
  rw [← h.requests_eq] at hr
  obtain ⟨a, ha, rfl⟩ := List.mem_map.1 hr
  refine ⟨a, ha, rfl, ?_⟩
  cases hanswer : a.answer with
  | none => rfl
  | some answer =>
    exact absurd (hjob _ _ _) (hunbegun _ (hcalls _ (entry_mem ha hanswer)))

theorem Served.mem_failuresOf (h : e.Served environments requests attempts results)
    {calls : List JournalEntry} (hcalls : ∀ x ∈ attempts.flatMap e.entries, x ∈ calls)
    (job : ρ → PoolJob) (hjob : ∀ env r answer, (e.call env r answer).job? = some (job r)) {r : ρ}
    (hr : r ∈ requests) (hunbegun : ∀ x ∈ calls, x.call.job? ≠ some (job r)) :
    e.name r ++ ": " ++ OrchestratorError.interrupted.message ∈ failuresOf results := by
  obtain ⟨a, ha, rfl, hnone⟩ := h.exists_unbegun hcalls job hjob hr hunbegun
  refine List.mem_filterMap.2 ⟨e.report a, ?_, ?_⟩
  · exact h.results_perm.mem_iff.2 (List.mem_map_of_mem ha)
  · rw [report, Attempt.result, hnone]

end Errand

namespace Surroundings

variable {s : Surroundings ω} {cluster : String} {inv : Invocation (Booked ω)}

/-! ## Operations without pools -/

theorem salvages_configure (s : Surroundings ω) (cluster : String) (documents : Documents)
    (implementation : String) (force : Bool) (inv : Invocation (Booked ω)) :
    let outcome := (s.booked.configure cluster documents implementation force).outcome inv
    Salvages cluster (.configure documents implementation force) (outcome.1.map some) inv.books
      outcome.2.books := by
  intro outcome
  rcases configure_cases (s := s) cluster documents implementation force inv with
    ⟨e, after, entries, hinert, houtcome, hafter⟩ |
    ⟨plan, names, now, late, after, entries, -, hvacant, -, -, hinert, houtcome, hafter⟩
  · simp only [outcome, houtcome, hafter]
    exact .of_inert (fun _ => rfl) hinert
  · simp only [outcome, houtcome, hafter]
    refine .of_jobless (fun _ => rfl) (Books.journal_enter_put _ _ _ _) ?_
    refine .of_quiet (fun x hx => ?_) fun d hd => ?_
    · rcases List.mem_append.1 hx with hx | hx
      · exact OutsideCall.isAcquisition_of_isInert (hinert x hx)
      · rw [List.mem_singleton.1 hx]
        rfl
    · obtain ⟨-, hmembers, hvolumes⟩ := ClusterDescriptor.isReplaceable_iff.1 (hvacant d hd).2
      refine ⟨fun key m hm => ?_, fun v hv => ?_⟩
      · rw [Dict.isEmpty_iff.1 hmembers] at hm
        cases hm
      · rw [hvolumes] at hv
        cases hv

theorem salvages_make (s : Surroundings ω) (cluster : String) (inv : Invocation (Booked ω)) :
    Salvages cluster .make (((s.booked.make cluster).outcome inv).1.map some) inv.books
      ((s.booked.make cluster).outcome inv).2.books := by
  obtain ⟨entries, hinert, hafter⟩ := enters_make s cluster inv
  rw [hafter]
  exact .of_inert (fun _ => rfl) hinert

theorem salvages_install (hnamed : inv.books.Named) :
    Salvages cluster .install (((s.booked.install cluster).outcome inv).1.map some) inv.books
      ((s.booked.install cluster).outcome inv).2.books := by
  rcases @install_cases _ s cluster inv hnamed with
    ⟨e, after, entries, hinert, houtcome, hafter⟩ |
    ⟨d, target, late, after, entries, hd, -, hinert, houtcome, hafter⟩
  · rw [houtcome, hafter]
    exact .of_inert (fun _ => rfl) hinert
  · rw [houtcome, hafter]
    refine .of_jobless (fun _ => rfl) (Books.journal_enter_put _ _ _ _) ?_
    exact .of_put hd (hnamed cluster d hd).1
      (fun x hx => OutsideCall.isAcquisition_of_isInert (hinert x hx))
      (fun _ m hm => ⟨m, hm, .inl rfl⟩) rfl

/-! ## Operations with pools -/

end Surroundings

namespace Starting

variable {cluster : String} {d : ClusterDescriptor}

/-- A start keeps the members of a consistent descriptor, as they were or as they have come up. -/
theorem keeps (x : Starting d) (h : d.Consistent cluster) {key : String} {m : Machine}
    (hm : d.members.find? key = some m) : x.descriptor.Keeps x.entries key m := by
  obtain ⟨kept, hkept⟩ :=
    Dict.contains_iff.1 (x.contains_members.2 (.inr (Dict.contains_iff.2 ⟨m, hm⟩)))
  refine ⟨kept, hkept, ?_⟩
  rcases x.find?_members hkept with hold | ⟨a, ha, rfl, hvalue⟩
  · rw [hm, Option.some.injEq] at hold
    exact .inl hold.symm
  · have hrequest := h.find?_of_stoppable (x.served.request_mem ha)
    rw [hm, Option.some.injEq] at hrequest
    refine .inr ⟨_, Errand.entry_mem ha (Attempt.value?_eq_some.1 hvalue), a.environment, ?_⟩
    rw [hrequest]
    rfl

end Starting

namespace Cleaning

variable {cluster : String} {d : ClusterDescriptor} (c : Cleaning d)

/-- An owned machine whose termination was not begun is left. -/
theorem find?_left_of_unbegun (h : d.Consistent cluster) {calls : List JournalEntry}
    (hcalls : ∀ x ∈ c.entries, x ∈ calls) {key : String} {m : Machine}
    (hm : d.members.find? key = some m) (howned : m.isOwned = true)
    (hunbegun : ∀ x ∈ calls, x.call.job? ≠ some (.terminate m)) :
    c.left.members.find? key = some m := by
  refine c.find?_members_left.2 ⟨hm, howned, ?_⟩
  rintro ⟨x, hx, rfl, hvalue⟩
  obtain ⟨u, hu⟩ := Option.isSome_iff_exists.1 hvalue
  have hrequest := h.find?_of_owned (c.terminations_served.request_mem hx)
  rw [hm, Option.some.injEq] at hrequest
  have hentry := Errand.entry_mem (e := Errand.terminating) hx (Attempt.value?_eq_some.1 hu)
  refine hunbegun _ (hcalls _ (List.mem_append_left _ hentry)) ?_
  rw [hrequest]
  rfl

/-- With distinct ids, a volume whose destruction was not begun is left. -/
theorem mem_left_of_unbegun (hids : (d.sharedStorage.map Volume.id).Nodup)
    {calls : List JournalEntry} (hcalls : ∀ x ∈ c.entries, x ∈ calls) {v : Volume}
    (hv : v ∈ d.sharedStorage) (hunbegun : ∀ x ∈ calls, x.call.job? ≠ some (.destroy v)) :
    v ∈ c.left.sharedStorage := by
  refine c.mem_sharedStorage_left.2 ⟨hv, ?_⟩
  rintro ⟨x, hx, hid, hvalue⟩
  obtain ⟨u, hu⟩ := Option.isSome_iff_exists.1 hvalue
  have hrequest : x.request = v :=
    List.inj_on_of_nodup_map hids (c.destructions_served.request_mem hx) hv hid
  have hentry := Errand.entry_mem (e := Errand.destroying) hx (Attempt.value?_eq_some.1 hu)
  refine hunbegun _ (hcalls _ (List.mem_append_right _ hentry)) ?_
  rw [← hrequest]
  rfl

theorem name_mem_remaining {key : String} {m : Machine}
    (h : c.left.members.find? key = some m) : key ∈ c.left.remaining :=
  List.mem_append_left _ (Dict.mem_keys_iff.2 (Dict.contains_iff.2 ⟨m, h⟩))

theorem volume_mem_remaining {v : Volume} (h : v ∈ c.left.sharedStorage) :
    v.name ∈ c.left.remaining :=
  List.mem_append_right _ (List.mem_map_of_mem h)

theorem label_mem_remaining (h : d.Consistent cluster)
    (hids : (d.sharedStorage.map Volume.id).Nodup) {calls : List JournalEntry}
    (hcalls : ∀ x ∈ c.entries, x ∈ calls) {job : PoolJob}
    (hjob : job ∈ Request.clean.jobs cluster d) (hunbegun : ∀ x ∈ calls, x.call.job? ≠ some job) :
    job.label ∈ c.left.remaining := by
  rcases List.mem_append.1 hjob with hjob | hjob
  · obtain ⟨m, hm, rfl⟩ := List.mem_map.1 hjob
    exact c.name_mem_remaining (c.find?_left_of_unbegun h hcalls (h.find?_of_owned hm)
      (List.mem_filter.1 hm).2 hunbegun)
  · obtain ⟨v, hv, rfl⟩ := List.mem_map.1 hjob
    exact c.volume_mem_remaining (c.mem_left_of_unbegun hids hcalls hv hunbegun)

/-- If anything is left, the cleanup fails with its name, and stores what is left. -/
theorem find?_settle_of_mem (hname : d.clusterName = cluster) {name : String}
    (h : name ∈ c.left.remaining) (late : Bool) (b : Books) :
    c.answer cluster = .error (.cleanupFailed cluster c.left.remaining) ∧
      (c.settle cluster late b).find? cluster = some { c.left with state := .failed } := by
  have hrest : ¬ c.left.remaining.isEmpty = true := by
    rw [List.isEmpty_iff]
    exact List.ne_nil_of_mem h
  refine ⟨by rw [answer, if_neg hrest], ?_⟩
  rw [settle, if_neg hrest, Books.find?_put]
  exact if_pos hname

theorem journal_settle (cluster : String) (late : Bool) (b : Books) : ∃ x : JournalEntry,
    (c.settle cluster late b).journal = b.journal ++ [x] ∧ x.call.isWrite = true := by
  rw [settle]
  split
  · exact ⟨_, rfl, rfl⟩
  · exact ⟨_, rfl, rfl⟩

theorem isAcquisition_of_mem {x : JournalEntry} (h : x ∈ c.entries) :
    x.call.isAcquisition = false := by
  rcases List.mem_append.1 h with h | h
  · obtain ⟨a, -, r, -, rfl⟩ := Errand.mem_flatMap_entries h
    rfl
  · obtain ⟨a, -, r, -, rfl⟩ := Errand.mem_flatMap_entries h
    rfl

/-- What a cleanup has not begun to take down is in the descriptor that it stores. -/
theorem retains {b : Books} (h : d.Consistent cluster) (hd : b.find? cluster = some d)
    (hids : (d.sharedStorage.map Volume.id).Nodup) {steps : List JournalEntry}
    (hsteps : ∀ x ∈ steps, x.call.isRole = true) (late : Bool) {last : JournalEntry}
    (hlast : last.call.isWrite = true) :
    Retains cluster b (c.settle cluster late (b.enter (steps ++ c.entries)))
      (steps ++ c.entries ++ [last]) := by
  have hcalls : ∀ x ∈ c.entries, x ∈ steps ++ c.entries ++ [last] := fun x hx =>
    List.mem_append_left _ (List.mem_append_right _ hx)
  refine .of_quiet (fun x hx => ?_) fun d' hd' => ?_
  · rcases List.mem_append.1 hx with hx | hx
    · rcases List.mem_append.1 hx with hx | hx
      · exact OutsideCall.isAcquisition_of_isInert (OutsideCall.isInert_of_isRole (hsteps x hx))
      · exact c.isAcquisition_of_mem hx
    · rw [List.mem_singleton.1 hx]
      exact OutsideCall.isAcquisition_of_isWrite hlast
  rw [hd, Option.some.injEq] at hd'
  subst hd'
  refine ⟨fun key m hm howned hunbegun => ?_, fun v hv hunbegun => ?_⟩
  · have hleft := c.find?_left_of_unbegun h hcalls hm howned hunbegun
    exact ⟨_, (c.find?_settle_of_mem h.clusterName (c.name_mem_remaining hleft) late _).2, m, hleft,
      .inl rfl⟩
  · have hleft := c.mem_left_of_unbegun hids hcalls hv hunbegun
    exact ⟨_, (c.find?_settle_of_mem h.clusterName (c.volume_mem_remaining hleft) late _).2, hleft⟩

end Cleaning

namespace Allocating

variable {cluster : String} {d : ClusterDescriptor} (a : Allocating cluster d)

theorem mem_requests_iff {r : LaunchRequest} : r ∈ d.wantedLaunches cluster ↔ r ∈ a.requests := by
  rw [ClusterDescriptor.wantedLaunches, a.provisions_eq]
  rfl

theorem mem_wantedVolumes_iff {r : StorageRequest} : r ∈ d.wantedVolumes cluster ↔
    r ∈ d.missingVolumes cluster (a.provisions.filterMap Provision.request?) := by
  rw [ClusterDescriptor.wantedVolumes, a.provisions_eq]

theorem failed_of_unbegun_launch (hnames : (d.instances.map Prod.fst).Nodup)
    {calls : List JournalEntry} (hcalls : ∀ x ∈ a.entries, x ∈ calls) {r : LaunchRequest}
    (hr : r ∈ d.wantedLaunches cluster)
    (hunbegun : ∀ x ∈ calls, x.call.job? ≠ some (.launch r)) : r.name ∈ a.allocation.failed := by
  rw [a.mem_requests_iff] at hr
  have hrequests : (a.requests.map LaunchRequest.name).Nodup :=
    (a.nodup_names hnames).sublist (List.sublist_append_right _ _)
  have hmissing : r.name ∉ a.launchedNames := by
    intro hlaunched
    obtain ⟨m, hm, hname⟩ := List.mem_map.1 hlaunched
    obtain ⟨x, hx, hmachine⟩ := List.mem_filterMap.1 hm
    obtain ⟨answered, hvalue, rfl⟩ := Attempt.machine?_eq_some.1 hmachine
    have hsame : x.request = r :=
      List.inj_on_of_nodup_map hrequests (a.launches_served.request_mem hx) hr hname
    have hentry := Errand.entry_mem (e := Errand.launching) hx (Attempt.value?_eq_some.1 hvalue)
    refine hunbegun _ (hcalls _ (List.mem_append_left _ hentry)) ?_
    rw [← hsame]
    rfl
  rw [a.failed_perm.mem_iff]
  refine List.mem_append_left _ (List.mem_append_right _ (List.mem_filter.2 ⟨?_, ?_⟩))
  · exact List.mem_map_of_mem hr
  · simpa using hmissing

theorem failed_of_unbegun_creation {calls : List JournalEntry}
    (hcalls : ∀ x ∈ a.entries, x ∈ calls) {r : StorageRequest}
    (hr : r ∈ d.wantedVolumes cluster)
    (hunbegun : ∀ x ∈ calls, x.call.job? ≠ some (.create r)) : r.label ∈ a.allocation.failed := by
  rw [a.mem_wantedVolumes_iff] at hr
  obtain ⟨x, hx, rfl, hnone⟩ := a.volumes_served.exists_unbegun
    (fun y hy => hcalls y (List.mem_append_right _ hy)) .create (fun _ _ _ => rfl) hr hunbegun
  have huncreated : x.request.label ∈ a.uncreatedLabels := by
    refine List.mem_map.2 ⟨x, List.mem_filter.2 ⟨hx, ?_⟩, rfl⟩
    rw [Attempt.value?, hnone]
    rfl
  rw [a.failed_perm.mem_iff]
  exact List.mem_append_right _ huncreated

/-- With distinct instance names, an allocation names the jobs that were not begun. -/
theorem label_mem_failed (hnames : (d.instances.map Prod.fst).Nodup) {calls : List JournalEntry}
    (hcalls : ∀ x ∈ a.entries, x ∈ calls) {force : Bool} {job : PoolJob}
    (hjob : job ∈ (Request.allocate force).jobs cluster d)
    (hunbegun : ∀ x ∈ calls, x.call.job? ≠ some job) : job.label ∈ a.allocation.failed := by
  rcases List.mem_append.1 hjob with hjob | hjob
  · obtain ⟨r, hr, rfl⟩ := List.mem_map.1 hjob
    exact a.failed_of_unbegun_launch hnames hcalls hr hunbegun
  · obtain ⟨r, hr, rfl⟩ := List.mem_map.1 hjob
    exact a.failed_of_unbegun_creation hcalls hr hunbegun

theorem find?_launched (hnames : (d.instances.map Prod.fst).Nodup)
    (hfaithful : ∀ x ∈ a.entries, x.call.Faithful)
    {x : Attempt LaunchRequest (Option Machine)} (hx : x ∈ a.launches) {m : Machine}
    (hvalue : x.value? = some (some m)) : a.descriptor.members.find? m.name = some m := by
  have hentry := hfaithful _ (List.mem_append_left _
    (Errand.entry_mem hx (Attempt.value?_eq_some.1 hvalue)))
  have hmachine : x.machine? = some m := by
    refine Attempt.machine?_eq_some.2 ⟨m, hvalue, ?_⟩
    rw [← hentry.1]
  exact (a.find?_members_iff hnames).2 (.inr ⟨a.mem_machines.2 (.inr ⟨x, hx, hmachine⟩), rfl⟩)

/-- What an allocation has brought is in the descriptor that it stores. -/
theorem retains {b : Books} (hd : b.find? cluster = some d) (hname : d.clusterName = cluster)
    (hnames : (d.instances.map Prod.fst).Nodup) (late : Bool)
    (hfaithful : ∀ x ∈ a.entries, x.call.Faithful) :
    Retains cluster b ((b.enter a.entries).put late a.descriptor)
      (a.entries ++ [⟨late, .saved a.descriptor⟩]) := by
  have hafter : ((b.enter a.entries).put late a.descriptor).find? cluster = some a.descriptor := by
    rw [Books.find?_put]
    exact if_pos hname
  refine ⟨fun d' hd' key m hm howned _ => ?_, fun d' hd' v hv _ => ?_, fun x hx => ?_,
    fun x hx => ?_⟩
  · rw [hd, Option.some.injEq] at hd'
    subst hd'
    exact ⟨_, hafter, m, a.find?_members_of_find? hm, .inl rfl⟩
  · rw [hd, Option.some.injEq] at hd'
    subst hd'
    exact ⟨_, hafter, a.sharedStorage_perm.mem_iff.2 (List.mem_append_left _ hv)⟩
  · intro env r m hcall
    rcases List.mem_append.1 hx with hx | hx
    · rcases List.mem_append.1 hx with hx | hx
      · obtain ⟨y, hy, answer, hanswer, rfl⟩ := Errand.mem_flatMap_entries hx
        obtain ⟨-, -, rfl⟩ := OutsideCall.launch.inj hcall
        exact ⟨_, hafter, a.find?_launched hnames hfaithful hy (Attempt.value?_eq_some.2 hanswer)⟩
      · obtain ⟨y, -, answer, -, rfl⟩ := Errand.mem_flatMap_entries hx
        cases hcall
    · rw [List.mem_singleton.1 hx] at hcall
      cases hcall
  · intro env r v hcall
    rcases List.mem_append.1 hx with hx | hx
    · rcases List.mem_append.1 hx with hx | hx
      · obtain ⟨y, -, answer, -, rfl⟩ := Errand.mem_flatMap_entries hx
        cases hcall
      · obtain ⟨y, hy, answer, hanswer, rfl⟩ := Errand.mem_flatMap_entries hx
        obtain ⟨-, -, rfl⟩ := OutsideCall.createVolume.inj hcall
        refine ⟨_, hafter, a.sharedStorage_perm.mem_iff.2 (List.mem_append_right _ ?_)⟩
        exact List.mem_filterMap.2 ⟨y, hy, Attempt.value?_eq_some.2 hanswer⟩
    · rw [List.mem_singleton.1 hx] at hcall
      cases hcall

end Allocating

namespace Surroundings

variable {s : Surroundings ω} {cluster : String} {inv : Invocation (Booked ω)}

theorem salvages_allocate (hnamed : inv.books.Named) {force : Bool}
    (hfaithful : ∀ x ∈ ((s.booked.allocate cluster force).outcome inv).2.books.journal,
      x.call.Faithful)
    (hdistinct : DistinctNames ((s.booked.allocate cluster force).outcome inv).2.books.journal) :
    Salvages cluster (.allocate force)
      (((s.booked.allocate cluster force).outcome inv).1.map some) inv.books
      ((s.booked.allocate cluster force).outcome inv).2.books := by
  rcases @allocate_cases _ s cluster force inv hnamed with
    ⟨e, he⟩ | ⟨d, hd, -, a, late, after, houtcome, hafter⟩
  · rw [he]
    exact .refused e
  rw [houtcome, hafter] at hfaithful hdistinct
  rw [houtcome, hafter]
  have hnames : (d.instances.map Prod.fst).Nodup := hdistinct.of_put
  have hentries : ∀ x ∈ a.entries, x ∈ a.entries ++ [⟨late, .saved a.descriptor⟩] :=
    fun x hx => List.mem_append_left _ hx
  refine .of_find? hd (Books.journal_enter_put _ _ _ _) (fun job hjob hunbegun => ?_) ?_
  · have hfailed := a.label_mem_failed hnames hentries hjob hunbegun
    refine ⟨.allocationFailed cluster a.allocation.failed, ?_, .inl hfailed⟩
    rw [Allocating.answer, if_neg]
    · rfl
    · rw [List.isEmpty_iff]
      exact List.ne_nil_of_mem hfailed
  · refine a.retains hd (hnamed cluster d hd).1 hnames late fun x hx => hfaithful x ?_
    rw [Books.journal_enter_put]
    exact List.mem_append_right _ (hentries x hx)

theorem salvages_stop (hnamed : inv.books.Named) :
    Salvages cluster .stop (((s.booked.stop cluster).outcome inv).1.map some) inv.books
      ((s.booked.stop cluster).outcome inv).2.books := by
  rcases @stop_falls _ s cluster inv hnamed with
    ⟨e, he⟩ | ⟨d, steps, after, hd, -, hsteps, hcases⟩
  · rw [he]
    exact .refused e
  have hquiet : ∀ x ∈ steps, x.call.isAcquisition = false := fun x hx =>
    OutsideCall.isAcquisition_of_isInert (OutsideCall.isInert_of_isRole (hsteps x hx))
  rcases hcases with ⟨e, houtcome, hafter⟩ | ⟨attempts, results, hserved, hcases⟩
  · rw [houtcome, hafter]
    exact ⟨steps, rfl, fun d _ job _ _ => ⟨e, rfl, .inr ⟨hsteps, fun _ => .inr rfl⟩⟩,
      .of_enter _ hquiet⟩
  have hcallsQuiet : ∀ x ∈ steps ++ attempts.flatMap Errand.stopping.entries,
      x.call.isAcquisition = false := by
    intro x hx
    rcases List.mem_append.1 hx with hx | hx
    · exact hquiet x hx
    · obtain ⟨a, -, r, -, rfl⟩ := Errand.mem_flatMap_entries hx
      rfl
  have hfailed : ∀ calls : List JournalEntry,
      (∀ x ∈ attempts.flatMap Errand.stopping.entries, x ∈ calls) →
      ∀ job ∈ Request.stop.jobs cluster d, (∀ x ∈ calls, x.call.job? ≠ some job) →
        job.label ∈ failuresOf results := by
    intro calls hcalls job hjob hunbegun
    obtain ⟨m, hm, rfl⟩ := List.mem_map.1 hjob
    exact hserved.mem_failuresOf hcalls .stop (fun _ _ _ => rfl) hm hunbegun
  rcases hcases with ⟨-, houtcome, hafter⟩ | ⟨hsucceeded, houtcome, late, hafter⟩
  · rw [houtcome, hafter]
    refine .of_find? hd rfl (.of_failures (hfailed _ ?_)) (.of_enter _ hcallsQuiet)
    exact fun x hx => List.mem_append_right _ hx
  · rw [houtcome, hafter]
    refine .of_find? hd (Books.journal_enter_put _ _ _ _)
      (.of_no_failures hsucceeded (hfailed _ ?_)) ?_
    · exact fun x hx => List.mem_append_left _ (List.mem_append_right _ hx)
    · exact .of_put hd (hnamed cluster d hd).1 hcallsQuiet (fun _ m hm => ⟨m, hm, .inl rfl⟩) rfl

theorem salvages_start (hnamed : inv.books.Named) (hall : inv.books.Consistent) :
    Salvages cluster .start (((s.booked.start cluster).outcome inv).1.map some) inv.books
      ((s.booked.start cluster).outcome inv).2.books := by
  rcases @start_rises _ s cluster inv hnamed with
    ⟨e, he⟩ | ⟨d, x, after, steps, hd, -, hsteps, hcases⟩
  · rw [he]
    exact .refused e
  have hquiet : ∀ y ∈ x.entries ++ steps, y.call.isAcquisition = false := by
    intro y hy
    rcases List.mem_append.1 hy with hy | hy
    · obtain ⟨a, -, r, -, rfl⟩ := Errand.mem_flatMap_entries hy
      rfl
    · exact OutsideCall.isAcquisition_of_isInert (OutsideCall.isInert_of_isRole (hsteps y hy))
  have hfailed : ∀ calls : List JournalEntry, (∀ y ∈ x.entries, y ∈ calls) →
      ∀ job ∈ Request.start.jobs cluster d, (∀ y ∈ calls, y.call.job? ≠ some job) →
        job.label ∈ failuresOf x.results := by
    intro calls hcalls job hjob hunbegun
    obtain ⟨m, hm, rfl⟩ := List.mem_map.1 hjob
    exact x.served.mem_failuresOf hcalls .start (fun _ _ _ => rfl) hm hunbegun
  have hstored : ∀ y ∈ x.entries, ∀ last, y ∈ x.entries ++ steps ++ [last] := fun y hy _ =>
    List.mem_append_left _ (List.mem_append_left _ hy)
  have hkeeps : ∀ key m, d.members.find? key = some m →
      x.descriptor.Keeps (x.entries ++ steps) key m := fun key m hm =>
    (x.keeps (hall cluster d hd) hm).append steps
  rcases hcases with ⟨hsucceeded, e, houtcome, hafter⟩ | ⟨-, houtcome, late, hafter⟩ |
    ⟨hsucceeded, houtcome, late, hafter⟩
  · rw [houtcome, hafter]
    refine .of_find? hd rfl (.of_no_failures hsucceeded (hfailed _ ?_)) (.of_enter _ hquiet)
    exact fun y hy => List.mem_append_left _ hy
  · rw [houtcome, hafter]
    exact .of_find? hd (Books.journal_enter_put _ _ _ _)
      (.of_failures (hfailed _ fun y hy => hstored y hy _))
      (.of_put hd (hnamed cluster d hd).1 hquiet hkeeps rfl)
  · rw [houtcome, hafter]
    exact .of_find? hd (Books.journal_enter_put _ _ _ _)
      (.of_no_failures hsucceeded (hfailed _ fun y hy => hstored y hy _))
      (.of_put hd (hnamed cluster d hd).1 hquiet hkeeps rfl)

theorem ne_interrupted_of_buildCloud {configs : Dict CloudConfig} {env : Environment}
    {e : OrchestratorError} (h : s.buildCloud configs env = .error e) : e ≠ .interrupted := by
  rintro rfl
  rw [buildCloud] at h
  split at h
  · cases h
  · obtain ⟨cause, -, hcause⟩ := Fallible.mapError_eq_error.1 h
    cases hcause

/-- Making the clients of environments does not look at the flag. -/
theorem ne_interrupted_of_cloudsFor {environments : List Environment} {e : OrchestratorError}
    (h : s.cloudsFor environments = .error e) : e ≠ .interrupted := by
  rcases Fallible.bind_eq_error.1 h with hclouds | ⟨clouds, -, hpure⟩
  · obtain ⟨env, -, hbuild⟩ := Fallible.exists_of_mapM_eq_error hclouds
    rcases Fallible.bind_eq_error.1 hbuild with hbuild | ⟨cloud, -, hpure⟩
    · exact ne_interrupted_of_buildCloud hbuild
    · cases hpure
  · cases hpure

theorem salvages_clean (hnamed : inv.books.Named) (hall : inv.books.Consistent)
    (hids : ∀ d, inv.books.find? cluster = some d → (d.sharedStorage.map Volume.id).Nodup) :
    Salvages cluster .clean (((s.booked.clean cluster).outcome inv).1.map fun _ => none) inv.books
      ((s.booked.clean cluster).outcome inv).2.books := by
  rcases loadFor_cases (s := s) cluster .clean inv with ⟨e, he⟩ | ⟨d, hd, -, hload⟩
  · rw [clean_eq, Work.bind_of_error he]
    exact .refused e
  obtain ⟨hname, hvalid⟩ := hnamed cluster d hd
  have hconsistent := hall cluster d hd
  cases hclouds : s.booked.cloudsFor d.environments with
  | error e =>
    obtain ⟨steps, hsteps, hstepBooks⟩ := enters_cleanInstalled s d inv
    have hfail : (s.booked.clean cluster).outcome inv =
        (.error e, (s.booked.cleanInstalled d inv).2) := by
      rw [clean_eq, Work.bind_of_ok hload, Work.bind_ofAction, tearDown]
      exact Work.bind_ofExcept_of_error hclouds _ _
    rw [hfail, hstepBooks]
    refine ⟨steps, rfl, fun _ _ job _ _ => ⟨e, rfl, .inr ⟨hsteps, fun he => ?_⟩⟩,
      .of_enter _ fun x hx => ?_⟩
    · exact absurd he (ne_interrupted_of_cloudsFor hclouds)
    · exact OutsideCall.isAcquisition_of_isInert (OutsideCall.isInert_of_isRole (hsteps x hx))
  | ok clouds =>
    obtain ⟨steps, c, late, after, hsteps, houtcome, hafter⟩ := clean_outcome hload hname hvalid
      hclouds (fun m hm => hconsistent.environment_of_owned hm) hconsistent.volumes
    obtain ⟨last, hjournal, hwrite⟩ :=
      c.journal_settle cluster late (inv.books.enter (steps ++ c.entries))
    rw [houtcome, hafter]
    refine .of_find? hd (hjournal.trans (List.append_assoc _ _ _))
      (fun job hjob hunbegun => ?_) (c.retains hconsistent hd (hids d hd) hsteps late hwrite)
    have hremaining := c.label_mem_remaining hconsistent (hids _ hd)
      (fun x hx => List.mem_append_left _ (List.mem_append_right _ hx)) hjob hunbegun
    rw [(c.find?_settle_of_mem hname hremaining late inv.books).1]
    exact ⟨_, rfl, .inl hremaining⟩

end Surroundings

end BenchCluster
