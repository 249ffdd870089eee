import BenchCluster.Proofs.Journal.Access

/-! # What a pool of jobs enters in the journal

Every request of a pool is attempted once. An attempt that was begun has made one call, which is
in the journal; the results are those of the attempts, by name.
-/

namespace BenchCluster

variable {ω ρ α : Type}

/-- Sorting by texts leaves them in order. -/
theorem pairwise_mergeSort_of_key {β : Type} (key : β → String) (l : List β) :
    (l.mergeSort fun a b => decide (key a ≤ key b)).Pairwise fun a b => key a ≤ key b := by
  have htrans : ∀ a b c : β, decide (key a ≤ key b) = true → decide (key b ≤ key c) = true →
      decide (key a ≤ key c) = true := by
    intro a b c hab hbc
    rw [decide_eq_true_iff] at hab hbc ⊢
    exact String.le_trans hab hbc
  have htotal : ∀ a b : β, (decide (key a ≤ key b) || decide (key b ≤ key a)) = true := by
    intro a b
    rw [Bool.or_eq_true, decide_eq_true_iff, decide_eq_true_iff]
    exact String.le_total _ _
  exact (List.pairwise_mergeSort htrans htotal l).imp fun h => of_decide_eq_true h

/-- What the jobs of one pool have in common: how a job is named, the environment whose cloud it
asks, what it asks, and how this is entered in a journal. -/
structure Errand (ρ α : Type) where
  name : ρ → String
  place : ρ → String
  ask : {ω : Type} → Cloud ω → ρ → Action ω (Except CloudError α)
  call : Environment → ρ → Except CloudError α → OutsideCall
  ask_bookCloud : ∀ {ω : Type} (s : Surroundings ω) (env : Environment) (cloud : Cloud ω) (r : ρ),
    ask (s.bookCloud env cloud) r = s.journaled (call env r) (ask cloud r)

/-- A request of a pool with the environment whose client it is for, and the answer if the job was
begun. -/
structure Attempt (ρ α : Type) where
  request : ρ
  environment : Environment
  answer : Option (Except CloudError α)

namespace Attempt

def result (a : Attempt ρ α) : Except OrchestratorError α :=
  match a.answer with
  | none => .error .interrupted
  | some r => r.mapError .cloud

def value? (a : Attempt ρ α) : Option α :=
  match a.answer with
  | some (.ok v) => some v
  | _ => none

theorem value?_eq_some {a : Attempt ρ α} {v : α} : a.value? = some v ↔ a.answer = some (.ok v) := by
  rw [value?]
  rcases a.answer with _ | e | u
  · simp
  · simp
  · simp

theorem result_of_value? {a : Attempt ρ α} {v : α} (h : a.value? = some v) : a.result = .ok v := by
  rw [value?] at h
  rw [result]
  rcases ha : a.answer with _ | e | u
  · simp [ha] at h
  · simp [ha] at h
  · simp only [ha, Option.some.injEq] at h
    simp [h, Except.mapError]

theorem result_of_value?_eq_none {a : Attempt ρ α} (h : a.value? = none) :
    ∃ e, a.result = .error e := by
  rw [value?] at h
  rw [result]
  rcases ha : a.answer with _ | e | u
  · exact ⟨_, rfl⟩
  · exact ⟨_, rfl⟩
  · simp [ha] at h

theorem isOk_result (a : Attempt ρ α) : a.result.isOk = a.value?.isSome := by
  cases h : a.value? with
  | none =>
    obtain ⟨e, he⟩ := result_of_value?_eq_none h
    rw [he]
    rfl
  | some v =>
    rw [result_of_value? h]
    rfl

end Attempt

namespace Errand

def job (e : Errand ρ α) (clouds : Dict (Cloud ω)) (r : ρ) :
    Except OrchestratorError (Job ω α) := do
  let cloud ← cloudOf clouds (e.place r)
  return ⟨e.name r, e.ask cloud r⟩

def report (e : Errand ρ α) (a : Attempt ρ α) : JobResult α := (e.name a.request, a.result)

def entries (e : Errand ρ α) (a : Attempt ρ α) : List JournalEntry :=
  match a.answer with
  | none => []
  | some r => [⟨false, e.call a.environment a.request r⟩]

/-- The attempts answer the requests in order, each in a listed environment, and the results are
those of the attempts in the order of the names. -/
structure Served (e : Errand ρ α) (environments : List Environment) (requests : List ρ)
    (attempts : List (Attempt ρ α)) (results : List (JobResult α)) : Prop where
  requests_eq : attempts.map Attempt.request = requests
  listed : ∀ a ∈ attempts, a.environment ∈ environments ∧ a.environment.name = e.place a.request
  results_perm : results.Perm (attempts.map e.report)
  sorted : results.Pairwise fun a b => a.1 ≤ b.1

namespace Served

variable {e : Errand ρ α} {environments : List Environment} {requests : List ρ}
  {attempts : List (Attempt ρ α)} {results : List (JobResult α)}

theorem request_mem (h : e.Served environments requests attempts results) {a : Attempt ρ α}
    (ha : a ∈ attempts) : a.request ∈ requests := by
  rw [← h.requests_eq]
  exact List.mem_map_of_mem ha

/-- What is gathered from the results is what is gathered from the attempts, up to the order. -/
theorem filterMap_perm {β : Type} (h : e.Served environments requests attempts results)
    (f : JobResult α → Option β) :
    (results.filterMap f).Perm (attempts.filterMap fun a => f (e.report a)) := by
  have hperm := h.results_perm.filterMap f
  rw [List.filterMap_map] at hperm
  exact hperm

end Served

/-! ## The six pools -/

def launching : Errand LaunchRequest (Option Machine) :=
  ⟨LaunchRequest.name, fun r => r.environment.name, Cloud.launchInstance, .launch,
    fun _ _ _ _ => rfl⟩

def creating : Errand StorageRequest Volume :=
  ⟨StorageRequest.label, fun r => r.environment.name, Cloud.launchStorage, .createVolume,
    fun _ _ _ _ => rfl⟩

def terminating : Errand Machine Unit :=
  ⟨Machine.name, Machine.environment, Cloud.terminateInstance, .terminate, fun _ _ _ _ => rfl⟩

def destroying : Errand Volume Unit :=
  ⟨Volume.id, Volume.environment, Cloud.destroyStorage, .destroyVolume, fun _ _ _ _ => rfl⟩

def stopping : Errand Machine Unit :=
  ⟨Machine.name, Machine.environment, Cloud.stopInstance, .stopMachine, fun _ _ _ _ => rfl⟩

def starting : Errand Machine Machine :=
  ⟨Machine.name, Machine.environment, Cloud.startInstance, .startMachine, fun _ _ _ _ => rfl⟩

theorem startJob_eq (clouds : Dict (Cloud ω)) :
    Surroundings.startJob clouds = starting.job clouds := rfl

/-! ## Jobs and what they do -/

variable {e : Errand ρ α} {s : Surroundings ω} {environments : List Environment}
  {clouds : Dict (Cloud (Booked ω))}

theorem job_eq_ok {r : ρ} {job : Job ω α} {clouds : Dict (Cloud ω)} :
    e.job clouds r = .ok job ↔
      ∃ cloud, clouds.find? (e.place r) = some cloud ∧ job = ⟨e.name r, e.ask cloud r⟩ := by
  rw [Errand.job, Fallible.bind_eq_ok]
  constructor
  · rintro ⟨cloud, hcloud, hpure⟩
    cases hpure
    rw [cloudOf] at hcloud
    split at hcloud
    · cases hcloud
      exact ⟨cloud, ‹_›, rfl⟩
    · cases hcloud
  · rintro ⟨cloud, hcloud, rfl⟩
    exact ⟨cloud, by rw [cloudOf, hcloud], rfl⟩

theorem exists_jobs (hclouds : s.booked.cloudsFor environments = .ok clouds) (requests : List ρ)
    (h : ∀ r ∈ requests, ∃ env ∈ environments, env.name = e.place r) :
    ∃ jobs, requests.mapM (e.job clouds) = .ok jobs := by
  apply Fallible.exists_mapM_eq_ok
  intro r hr
  obtain ⟨env, henv, hname⟩ := h r hr
  obtain ⟨cloud, hcloud⟩ := Surroundings.contains_cloudsFor hclouds henv
  rw [hname] at hcloud
  exact ⟨_, job_eq_ok.2 ⟨cloud, hcloud, rfl⟩⟩

theorem listed_of_jobs (hclouds : s.booked.cloudsFor environments = .ok clouds) {requests : List ρ}
    {jobs : List (Job (Booked ω) α)} (hjobs : requests.mapM (e.job clouds) = .ok jobs) :
    ∀ r ∈ requests, ∃ env ∈ environments, env.name = e.place r := by
  intro r hr
  obtain ⟨job, -, hjob⟩ := Fallible.exists_of_mapM_eq_ok hjobs r hr
  obtain ⟨cloud, hcloud, -⟩ := job_eq_ok.1 hjob
  obtain ⟨env, henv, hname, -⟩ := Surroundings.find?_cloudsFor hclouds hcloud
  exact ⟨env, henv, hname⟩

/-- A job makes the call of its request, unless the user has asked to stop. -/
theorem runJob_attempt (hclouds : s.booked.cloudsFor environments = .ok clouds) {r : ρ}
    {job : Job (Booked ω) α} (hjob : e.job clouds r = .ok job) (inv : Invocation (Booked ω)) :
    ∃ a : Attempt ρ α, a.request = r ∧
      (a.environment ∈ environments ∧ a.environment.name = e.place r) ∧
      (s.booked.runJob job inv).1 = e.report a ∧
      (s.booked.runJob job inv).2.books = inv.books.enter (e.entries a) := by
  obtain ⟨cloud, hcloud, rfl⟩ := job_eq_ok.1 hjob
  obtain ⟨env, henv, hname, c, rfl⟩ := Surroundings.find?_cloudsFor hclouds hcloud
  -- The books stay as they are while the job waits.
  let begun := s.booked.waited inv
  have hrun : s.booked.runJob ⟨e.name r, e.ask (s.bookCloud env c) r⟩ inv =
      if s.interrupted begun.outside.world then ((e.name r, .error .interrupted), begun)
      else
        let reply := e.ask (s.bookCloud env c) r begun
        ((e.name r, reply.1.mapError .cloud), reply.2) := by
    change (if s.interrupted begun.outside.world then _ else _ : Action (Booked ω) _) begun = _
    split <;> rfl
  rw [hrun]
  by_cases hi : s.interrupted begun.outside.world
  · refine ⟨⟨r, env, none⟩, rfl, ⟨henv, hname⟩, ?_, ?_⟩
    · rw [if_pos hi]
      rfl
    · rw [if_pos hi]
      exact (Books.enter_nil _).symm
  · rw [if_neg hi, e.ask_bookCloud]
    refine ⟨⟨r, env, some _⟩, rfl, ⟨henv, hname⟩, rfl, ?_⟩
    rw [Bool.not_eq_true] at hi
    change inv.books.enter [⟨s.interrupted begun.outside.world, _⟩] = _
    rw [hi]
    rfl

theorem mapM_runJob (hclouds : s.booked.cloudsFor environments = .ok clouds) {requests : List ρ}
    {jobs : List (Job (Booked ω) α)}
    (hjobs : List.Forall₂ (fun r job => e.job clouds r = .ok job) requests jobs)
    (inv : Invocation (Booked ω)) :
    ∃ attempts : List (Attempt ρ α), attempts.map Attempt.request = requests ∧
      (∀ a ∈ attempts, a.environment ∈ environments ∧ a.environment.name = e.place a.request) ∧
      (jobs.mapM s.booked.runJob inv).1 = attempts.map e.report ∧
      (jobs.mapM s.booked.runJob inv).2.books = inv.books.enter (attempts.flatMap e.entries) := by
  induction hjobs generalizing inv with
  | nil =>
    rw [List.mapM_nil]
    exact ⟨[], rfl, by simp, rfl, (Books.enter_nil _).symm⟩
  | cons hjob _ ih =>
    obtain ⟨a, hrequest, hlisted, hresult, hbooks⟩ := runJob_attempt hclouds hjob inv
    obtain ⟨rest, hrequests, hrestListed, hresults, hrestBooks⟩ := ih (s.booked.runJob _ inv).2
    rw [List.mapM_cons]
    refine ⟨a :: rest, by rw [List.map_cons, hrequest, hrequests], ?_, ?_, ?_⟩
    · intro b hb
      rcases List.mem_cons.1 hb with rfl | hb
      · rw [hrequest]
        exact hlisted
      · exact hrestListed b hb
    · rw [List.map_cons, ← hresult, ← hresults]
      rfl
    · rw [List.flatMap_cons, ← Books.enter_enter, ← hbooks, ← hrestBooks]
      rfl

/-- A pool serves its requests, and enters the calls of the attempts. -/
theorem inPool_served (hclouds : s.booked.cloudsFor environments = .ok clouds)
    {requests : List ρ} {jobs : List (Job (Booked ω) α)}
    (hjobs : requests.mapM (e.job clouds) = .ok jobs) (pool : Pool)
    (inv : Invocation (Booked ω)) :
    ∃ attempts, e.Served environments requests attempts (s.booked.inPool pool jobs inv).1 ∧
      (s.booked.inPool pool jobs inv).2.books = inv.books.enter (attempts.flatMap e.entries) := by
  obtain ⟨attempts, hrequests, hlisted, hresults, hbooks⟩ :=
    mapM_runJob hclouds (Fallible.mapM_eq_ok.1 hjobs) inv
  have hsorted : (s.booked.inPool pool jobs inv).1 =
      Surroundings.sortResults ((s.arrival pool).arrange (attempts.map e.report)) := by
    rw [← hresults]
    rfl
  refine ⟨attempts, ⟨hrequests, hlisted, ?_, ?_⟩, hbooks⟩
  · rw [hsorted]
    exact (List.mergeSort_perm _ _).trans ((s.arrival pool).perm _)
  · rw [hsorted]
    exact pairwise_mergeSort_of_key Prod.fst _

theorem filterMap_sublist_map {β γ : Type} {f : β → Option γ} {g : β → γ}
    (h : ∀ x y, f x = some y → g x = y) {l : List β} : (l.filterMap f).Sublist (l.map g) := by
  induction l with
  | nil => exact .slnil
  | cons x rest ih =>
    rw [List.filterMap_cons, List.map_cons]
    cases hx : f x with
    | none => exact ih.cons _
    | some y =>
      rw [h x y hx]
      exact ih.cons_cons _

theorem entry_mem {attempts : List (Attempt ρ α)} {a : Attempt ρ α} (ha : a ∈ attempts)
    {r : Except CloudError α} (hr : a.answer = some r) :
    ⟨false, e.call a.environment a.request r⟩ ∈ attempts.flatMap e.entries := by
  refine List.mem_flatMap.2 ⟨a, ha, ?_⟩
  rw [entries, hr]
  exact List.mem_singleton_self _

theorem mem_flatMap_entries {attempts : List (Attempt ρ α)} {x : JournalEntry}
    (hx : x ∈ attempts.flatMap e.entries) :
    ∃ a ∈ attempts, ∃ r, a.answer = some r ∧ x = ⟨false, e.call a.environment a.request r⟩ := by
  obtain ⟨a, ha, hx⟩ := List.mem_flatMap.1 hx
  rw [entries] at hx
  cases hr : a.answer with
  | none =>
    rw [hr] at hx
    cases hx
  | some r =>
    rw [hr] at hx
    exact ⟨a, ha, r, hr, List.mem_singleton.1 hx⟩

/-- What is gathered from the calls of attempts comes from their answers. -/
theorem filterMap_entries {β : Type} (e : Errand ρ α) (f : OutsideCall → Option β)
    (attempts : List (Attempt ρ α)) :
    (attempts.flatMap e.entries).filterMap (fun x => f x.call) =
      attempts.filterMap fun a => a.answer.bind fun r => f (e.call a.environment a.request r) := by
  rw [List.filterMap_flatMap, List.filterMap_eq_flatMap_toList]
  refine List.flatMap_congr fun a _ => ?_
  rw [entries]
  cases a.answer with
  | none => rfl
  | some r => cases h : f (e.call a.environment a.request r) <;> simp [h]

end Errand

end BenchCluster
