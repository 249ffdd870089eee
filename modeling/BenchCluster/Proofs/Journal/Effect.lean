import BenchCluster.Proofs.Journal.Frail

/-! # What operations answer, and what they leave

For every operation the answers it may give, each with the books it leaves, whatever the store, the
clouds, the roles and the hosts do. Nothing is asked of the stored descriptors.
-/

namespace BenchCluster

variable {ω : Type}

def Request.accepts (d : ClusterDescriptor) : Request → Bool
  | .configure _ _ force => force && d.isReplaceable
  | .allocate force => d.state.allows (.allocate force)
  | .make => d.state.allows .make
  | .install => d.state.allows .install
  | .stop => d.state.allows .stop
  | .start => d.state.allows .start
  | .clean => d.state.allows .clean
  | .all _ _ force => force && d.isReplaceable

/-- Whether a call asks a cloud for a machine or a volume, or writes to the store. -/
def OutsideCall.isLasting : OutsideCall → Bool
  | .launch .. => true
  | .createVolume .. => true
  | .saved _ => true
  | .deleted _ => true
  | _ => false

theorem OutsideCall.isLasting_of_isInert {c : OutsideCall} (h : c.isInert = true) :
    c.isLasting = false := by
  cases c <;> simp_all [isInert, isLasting]

theorem OutsideCall.isLasting_of_isRole {c : OutsideCall} (h : c.isRole = true) :
    c.isLasting = false := by
  cases c <;> simp_all [isRole, isLasting]

/-- An allocation that falls short says what it could not obtain. -/
theorem Allocating.eq_of_answer_eq_error {cluster : String} {d : ClusterDescriptor}
    {a : Allocating cluster d} {e : OrchestratorError}
    {f : ClusterDescriptor → Option ClusterDescriptor} (h : a.answer.map f = .error e) :
    e = .allocationFailed cluster a.allocation.failed := by
  rw [answer] at h
  split at h
  · cases h
  · cases h
    rfl

/-- A cleanup that falls short says what is left. -/
theorem Cleaning.eq_of_answer_eq_error {cluster : String} {d : ClusterDescriptor} {c : Cleaning d}
    {e : OrchestratorError} {f : Unit → Option ClusterDescriptor}
    (h : (c.answer cluster).map f = .error e) : e = .cleanupFailed cluster c.left.remaining := by
  rw [answer] at h
  split at h
  · cases h
  · cases h
    rfl

/-- What an operation on a cluster answers, and the books it leaves. -/
inductive Effect (cluster : String) (b : Books) :
    Request → Except OrchestratorError (Option ClusterDescriptor) → Books → Prop
  /-- The operation is not allowed and does nothing. -/
  | refused {request : Request} {e : OrchestratorError} (refusal : e.isRefusal = true)
      (unaccepted : ∀ d, b.find? cluster = some d → request.accepts d = false) :
      Effect cluster b request (.error e) b
  /-- Something goes wrong, and nothing has been obtained or stored before. -/
  | failed {request : Request} {e : OrchestratorError} {entries : List JournalEntry}
      (mishap : e.isMishap = true) (nothing : ∀ x ∈ entries, x.call.isLasting = false) :
      Effect cluster b request (.error e) (b.enter entries)
  /-- The descriptor of a plan is stored. -/
  | configured {documents : Documents} {implementation : String} {force : Bool} {plan : Plan}
      {names : Dict String} {now : Timestamp} {late : Bool} {entries : List JournalEntry}
      (valid : isValidClusterName cluster = true)
      (inert : ∀ x ∈ entries, x.call.isInert = true)
      (accepted : ∀ d, b.find? cluster = some d →
        (Request.configure documents implementation force).accepts d = true)
      (planned : documents.plan implementation = .ok plan) (expanded : plan.expand = .ok names) :
      Effect cluster b (.configure documents implementation force)
        (.ok (some (plan.descriptor cluster names now)))
        ((b.enter entries).put late (plan.descriptor cluster names now))
  /-- Machines and volumes have been asked for, but what has come of it could not be stored. -/
  | lost {d : ClusterDescriptor} {force : Bool} {e : OrchestratorError}
      (loaded : b.Loaded cluster (.allocate force) d) (a : Allocating cluster d)
      (mishap : e.isMishap = true) :
      Effect cluster b (.allocate force) (.error e) (b.enter a.entries)
  /-- What has come of the launches and the volumes is stored. -/
  | allocated {d : ClusterDescriptor} {force late : Bool}
      (loaded : b.Loaded cluster (.allocate force) d) (a : Allocating cluster d) :
      Effect cluster b (.allocate force) (a.answer.map some)
        ((b.enter a.entries).put late a.descriptor)
  /-- The machines have been prepared. -/
  | made {d : ClusterDescriptor} {entries : List JournalEntry} (loaded : b.Loaded cluster .make d)
      (inert : ∀ x ∈ entries, x.call.isInert = true) :
      Effect cluster b .make (.ok (some d)) (b.enter entries)
  /-- The cluster has been installed. -/
  | installed {d : ClusterDescriptor} {target : ConnectionTarget} {late : Bool}
      {entries : List JournalEntry} (loaded : b.Loaded cluster .install d)
      (inert : ∀ x ∈ entries, x.call.isInert = true) :
      Effect cluster b .install
        (.ok (some { d with connectionTarget := some target, state := .ready }))
        ((b.enter entries).put late { d with connectionTarget := some target, state := .ready })
  /-- The cluster has been stopped. -/
  | stopped {d : ClusterDescriptor} {late : Bool} {entries : List JournalEntry}
      (loaded : b.Loaded cluster .stop d) (inert : ∀ x ∈ entries, x.call.isInert = true) :
      Effect cluster b .stop (.ok (some { d with state := .down }))
        ((b.enter entries).put late { d with state := .down })
  /-- Some instances have not been started; those that have are stored. -/
  | woken {d : ClusterDescriptor} {late : Bool} (loaded : b.Loaded cluster .start d)
      (x : Starting d) (failures : failuresOf x.results ≠ []) :
      Effect cluster b .start (.error (.phaseFailed .start (failuresOf x.results)))
        ((b.enter x.entries).put late x.descriptor)
  /-- The cluster has been started. -/
  | started {d : ClusterDescriptor} {late : Bool} {steps : List JournalEntry}
      (loaded : b.Loaded cluster .start d) (x : Starting d)
      (inert : ∀ y ∈ steps, y.call.isInert = true) :
      Effect cluster b .start (.ok (some { x.descriptor with state := .ready }))
        ((b.enter (x.entries ++ steps)).put late { x.descriptor with state := .ready })
  /-- The cluster has been torn down, and forgotten if nothing is left of it. -/
  | cleaned {d : ClusterDescriptor} {late : Bool} {steps : List JournalEntry}
      (loaded : b.Loaded cluster .clean d) (roles : ∀ x ∈ steps, x.call.isRole = true)
      (c : Cleaning d) :
      Effect cluster b .clean ((c.answer cluster).map fun _ => none)
        (c.settle cluster late (b.enter (steps ++ c.entries)))

namespace Effect

variable {s : Surroundings ω} {cluster : String} {request : Request} {b : Books}

theorem of_mishap {α : Type} {inv : Invocation (Booked ω)}
    {outcome : Except OrchestratorError α × Invocation (Booked ω)}
    {f : α → Option ClusterDescriptor}
    (h : Mishap (fun c => c.isLasting = false) inv outcome) :
    Effect cluster inv.books request (outcome.1.map f) outcome.2.books := by
  obtain ⟨e, after, entries, hmishap, hentries, rfl, hafter⟩ := h
  rw [hafter]
  exact .failed hmishap hentries

theorem of_mishap_inert {α : Type} {inv : Invocation (Booked ω)}
    {outcome : Except OrchestratorError α × Invocation (Booked ω)}
    {f : α → Option ClusterDescriptor}
    (h : Mishap (fun c => c.isInert = true) inv outcome) :
    Effect cluster inv.books request (outcome.1.map f) outcome.2.books := by
  obtain ⟨e, after, entries, hmishap, hentries, houtcome, hafter⟩ := h
  exact of_mishap ⟨e, after, entries, hmishap,
    fun x hx => OutsideCall.isLasting_of_isInert (hentries x hx), houtcome, hafter⟩

theorem of_error {α : Type} {inv after : Invocation (Booked ω)} {e : OrchestratorError}
    {f : α → Option ClusterDescriptor} (hafter : after.books = inv.books)
    (h : e.isMishap = true ∨ e.isRefusal = true ∧
      ∀ d, inv.books.find? cluster = some d → request.accepts d = false) :
    Effect cluster inv.books request ((Except.error e : Except OrchestratorError α).map f)
      after.books := by
  rw [hafter]
  rcases h with hmishap | ⟨hrefusal, hunaccepted⟩
  · have hfailed : Effect cluster inv.books request (.error e) (inv.books.enter []) :=
      .failed hmishap (by simp)
    rwa [Books.enter_nil] at hfailed
  · exact .refused hrefusal hunaccepted

/-! ## The operations -/

theorem checkVacant_frail_cases (s : Surroundings ω) (cluster : String) (force : Bool)
    (documents : Documents) (implementation : String) (inv : Invocation (Booked ω)) :
    (∃ e after, (s.frail.checkVacant cluster force).outcome inv = (.error e, after) ∧
        after.books = inv.books ∧ (e.isMishap = true ∨ e.isRefusal = true ∧
          ∀ d, inv.books.find? cluster = some d →
            (Request.configure documents implementation force).accepts d = false)) ∨
      ∃ after, (s.frail.checkVacant cluster force).outcome inv = (.ok (), after) ∧
        after.books = inv.books ∧ ∀ d, inv.books.find? cluster = some d →
          (Request.configure documents implementation force).accepts d = true := by
  rw [Surroundings.checkVacant]
  rcases s.contains_frail_cases cluster inv with
    ⟨e, after, hasked, hafter⟩ | ⟨present, mid, hasked, hmid, -, habsent⟩
  · exact .inl ⟨_, after, Work.bind_of_error hasked, hafter, .inl rfl⟩
  rw [Work.bind_of_ok hasked]
  cases present with
  | false =>
    right
    refine ⟨mid, rfl, hmid, fun d hd => ?_⟩
    rw [habsent rfl] at hd
    cases hd
  | true =>
    cases force with
    | false => exact .inl ⟨.alreadyConfigured cluster, mid, rfl, hmid, .inr ⟨rfl, fun _ _ => rfl⟩⟩
    | true =>
      rcases s.load_frail_cases cluster mid with ⟨e, after, hload, hafter⟩ |
        ⟨d, after, hd, -, hload, hafter⟩
      · exact .inl ⟨_, after, (Work.bind_of_error hload).trans rfl, hafter.trans hmid, .inl rfl⟩
      have hstored : ∀ d', inv.books.find? cluster = some d' → d = d' := by
        intro d' hd'
        rw [← hmid, hd, Option.some.injEq] at hd'
        exact hd'
      cases hreplaceable : d.isReplaceable with
      | false =>
        left
        refine ⟨.holdsResources cluster d.state, after, ?_, hafter.trans hmid,
          .inr ⟨rfl, fun d' hd' => ?_⟩⟩
        · refine (Work.bind_of_ok hload).trans ?_
          simp only [hreplaceable]
          rfl
        · rw [← hstored d' hd', Request.accepts, hreplaceable, Bool.and_false]
      | true =>
        right
        refine ⟨after, ?_, hafter.trans hmid, fun d' hd' => ?_⟩
        · refine (Work.bind_of_ok hload).trans ?_
          simp only [hreplaceable]
          rfl
        · rw [← hstored d' hd', Request.accepts, hreplaceable, Bool.and_true]

theorem configure (s : Surroundings ω) (cluster : String) (documents : Documents)
    (implementation : String) (force : Bool) (inv : Invocation (Booked ω)) :
    Effect cluster inv.books (.configure documents implementation force)
      (((s.frail.configure cluster documents implementation force).outcome inv).1.map some)
      ((s.frail.configure cluster documents implementation force).outcome inv).2.books := by
  rw [Surroundings.configure]
  have hgo := Surroundings.outcome_checkInterrupted s.frail inv
  by_cases hi : s.frail.interrupted inv.outside
  · rw [if_pos hi] at hgo
    rw [Work.bind_of_error hgo]
    exact of_error rfl (.inl rfl)
  rw [if_neg hi] at hgo
  rw [Work.bind_of_ok hgo]
  rcases checkVacant_frail_cases s cluster force documents implementation inv with
    ⟨e, after, hvacant, hafter, hkind⟩ | ⟨mid, hvacant, hmid, haccepted⟩
  · rw [Work.bind_of_error hvacant]
    exact of_error hafter hkind
  rw [Work.bind_of_ok hvacant]
  cases hplan : documents.plan implementation with
  | error e => exact of_error hmid (.inl rfl)
  | ok plan =>
    rw [Work.bind_ofExcept_of_ok rfl]
    cases hnames : plan.expand with
    | error e => exact of_error hmid (.inl rfl)
    | ok names =>
      rw [Work.bind_ofExcept_of_ok rfl]
      have henters : Enters (fun c => c.isInert = true)
          (plan.environments.forM (s.frail.checkIdle cluster documents.clouds) >>=
            fun _ => Work.ofAction get).outcome :=
        Enters.work_bind (Enters.work_forM (Surroundings.enters_checkIdle s cluster _)) fun _ =>
          Enters.ofAction fun _ => ⟨[], by simp, (Books.enter_nil _).symm⟩
      have hmishaps : (plan.environments.forM (s.frail.checkIdle cluster documents.clouds) >>=
          fun _ => Work.ofAction (get : Action (Booked ω) _)).OnlyMishaps :=
        .bind (.forM (.checkIdle s.frail cluster documents.clouds) _) fun _ => .ofAction _
      rw [← bind_assoc]
      rcases Mishap.or_stored s henters hmishaps
          (fun now => plan.descriptor cluster names (s.frail.now now.outside)) mid with
        hmishap | ⟨now, late, after, entries, hentries, houtcome, hvalid, hafter⟩
      · rw [← hmid]
        exact of_mishap_inert hmishap
      · rw [houtcome, hafter, hmid]
        exact .configured hvalid hentries haccepted hplan hnames

theorem of_loadFor {α : Type} {operation : Operation} {x : ClusterDescriptor → Work (Booked ω) α}
    {f : α → Option ClusterDescriptor}
    (haccepts : ∀ d, request.accepts d = d.state.allows operation)
    (h : ∀ d mid, mid.books.Loaded cluster operation d → Effect cluster mid.books request
      (((x d).outcome mid).1.map f) ((x d).outcome mid).2.books)
    (inv : Invocation (Booked ω)) :
    Effect cluster inv.books request
      (((s.frail.loadFor cluster operation >>= x).outcome inv).1.map f)
      ((s.frail.loadFor cluster operation >>= x).outcome inv).2.books := by
  rcases s.loadFor_frail_cases cluster operation inv with
    ⟨e, after, hload, hafter, hkind⟩ | ⟨d, mid, hloaded, hload, hmid⟩
  · rw [Work.bind_of_error hload]
    refine of_error hafter (hkind.imp_right fun hrefused => ⟨hrefused.1, fun d hd => ?_⟩)
    rw [haccepts]
    exact hrefused.2 d hd
  · rw [Work.bind_of_ok hload, ← hmid]
    exact h d mid (by rwa [hmid])

theorem allocate (s : Surroundings ω) (cluster : String) (force : Bool)
    (inv : Invocation (Booked ω)) :
    Effect cluster inv.books (.allocate force)
      (((s.frail.allocate cluster force).outcome inv).1.map some)
      ((s.frail.allocate cluster force).outcome inv).2.books := by
  simp only [Surroundings.allocate_eq, Surroundings.acquire_frail]
  refine of_loadFor (fun _ => rfl) (fun d mid hloaded => ?_) inv
  rcases s.acquire_cases cluster d mid with ⟨e, hacquire⟩ | ⟨a, last, hacquire, hlast⟩
  · have hmishap := Work.OnlyMishaps.acquire s.booked cluster d mid
    rw [hacquire] at hmishap
    rw [Work.bind_of_error hacquire]
    exact of_error rfl (.inl (hmishap e rfl))
  rw [Work.bind_of_ok hacquire]
  rcases s.save_frail_cases (a.allocation.record d) last with ⟨e, after, hsave, hafter⟩ |
    ⟨late, after, hsave, -, hafter⟩
  · rw [Work.bind_of_error hsave, hafter, hlast]
    exact .lost hloaded a rfl
  · rw [Work.bind_of_ok hsave, Surroundings.report_outcome, hafter, hlast]
    exact .allocated hloaded a

theorem make (s : Surroundings ω) (cluster : String) (inv : Invocation (Booked ω)) :
    Effect cluster inv.books .make (((s.frail.make cluster).outcome inv).1.map some)
      ((s.frail.make cluster).outcome inv).2.books := by
  rw [Surroundings.make_eq]
  refine of_loadFor (fun _ => rfl) (fun d mid hloaded => ?_) inv
  rcases Mishap.or_bind (Surroundings.enters_prepare s d) (.prepare s.frail d)
      (fun _ => return d) mid with hmishap | ⟨-, after, entries, hentries, hafter, houtcome⟩
  · exact of_mishap_inert hmishap
  · change (s.frail.prepare d >>= fun _ => return d).outcome mid = (.ok d, after) at houtcome
    rw [houtcome, hafter]
    exact .made hloaded hentries

theorem install (s : Surroundings ω) (cluster : String) (inv : Invocation (Booked ω)) :
    Effect cluster inv.books .install (((s.frail.install cluster).outcome inv).1.map some)
      ((s.frail.install cluster).outcome inv).2.books := by
  rw [Surroundings.install_eq]
  refine of_loadFor (fun _ => rfl) (fun d mid hloaded => ?_) inv
  have hinert := (s.enters_bringUp d).imp fun _ => OutsideCall.isInert_of_isRole
  rcases Mishap.or_stored s hinert (.bringUp s.frail d)
      (fun target => { d with
        connectionTarget := some (target.getD .placeholder), state := .ready }) mid with
    hmishap | ⟨target, late, after, entries, hentries, houtcome, -, hafter⟩
  · exact of_mishap_inert hmishap
  · change (s.frail.bringUp d >>= _).outcome mid = _ at houtcome
    rw [houtcome, hafter]
    exact .installed hloaded hentries

theorem stop (s : Surroundings ω) (cluster : String) (inv : Invocation (Booked ω)) :
    Effect cluster inv.books .stop (((s.frail.stop cluster).outcome inv).1.map some)
      ((s.frail.stop cluster).outcome inv).2.books := by
  rw [Surroundings.stop_eq]
  refine of_loadFor (fun _ => rfl) (fun d mid hloaded => ?_) inv
  rcases Mishap.or_stored s (Surroundings.enters_bringDown s d) (.bringDown s.frail d)
      (fun _ => { d with state := .down }) mid with
    hmishap | ⟨-, late, after, entries, hentries, houtcome, -, hafter⟩
  · exact of_mishap_inert hmishap
  · change (s.frail.bringDown d >>= _).outcome mid = _ at houtcome
    rw [houtcome, hafter]
    exact .stopped hloaded hentries

theorem isLasting_of_starting {d : ClusterDescriptor} (x : Starting d) :
    ∀ y ∈ x.entries, y.call.isLasting = false := by
  intro y hy
  obtain ⟨a, -, r, -, rfl⟩ := Errand.mem_flatMap_entries hy
  rfl

theorem isLasting_of_waking {d : ClusterDescriptor} (x : Starting d) {steps : List JournalEntry}
    (h : ∀ y ∈ steps, y.call.isInert = true) :
    ∀ y ∈ x.entries ++ steps, y.call.isLasting = false := by
  rw [List.forall_mem_append]
  exact ⟨isLasting_of_starting x, fun y hy => OutsideCall.isLasting_of_isInert (h y hy)⟩

/-- Once the instances have been started, what has come up is stored, if an instance has not or once
the roles are up, unless something goes wrong before. -/
theorem rise_frail_cases {d : ClusterDescriptor} (s : Surroundings ω) (x : Starting d)
    (inv : Invocation (Booked ω)) :
    let work := s.frail.rise x.descriptor (failuresOf x.results)
    ∃ after steps, (∀ y ∈ steps, y.call.isRole = true) ∧
      ((∃ e, e.isMishap = true ∧ work.outcome inv = (.error e, after) ∧
          after.books = inv.books.enter steps) ∨
        (failuresOf x.results ≠ [] ∧ work.outcome inv =
            (.error (.phaseFailed .start (failuresOf x.results)), after) ∧
          ∃ late, after.books = inv.books.put late x.descriptor) ∨
        (work.outcome inv = (.ok { x.descriptor with state := .ready }, after) ∧
          ∃ late, after.books =
            (inv.books.enter steps).put late { x.descriptor with state := .ready })) := by
  intro work
  by_cases hfailures : failuresOf x.results = []
  · have hwork : work = s.frail.wakeRoles x.descriptor >>= fun _ =>
        s.frail.save { x.descriptor with state := .ready } >>= fun _ =>
          return { x.descriptor with state := .ready } := by
      change s.frail.rise x.descriptor (failuresOf x.results) = _
      rw [Surroundings.rise, if_neg (by simp [hfailures])]
    rw [hwork]
    rcases Mishap.or_stored s (Surroundings.enters_wakeRoles s x.descriptor)
        (.wakeRoles s.frail x.descriptor) (fun _ => { x.descriptor with state := .ready }) inv with
      ⟨e, after, steps, hmishap, hsteps, houtcome, hafter⟩ |
      ⟨-, late, after, steps, hsteps, houtcome, -, hafter⟩
    · exact ⟨after, steps, hsteps, .inl ⟨e, hmishap, houtcome, hafter⟩⟩
    · exact ⟨after, steps, hsteps, .inr (.inr ⟨houtcome, late, hafter⟩)⟩
  · have hwork : work = s.frail.save x.descriptor >>= fun _ =>
        throw (.phaseFailed .start (failuresOf x.results)) := by
      change s.frail.rise x.descriptor (failuresOf x.results) = _
      rw [Surroundings.rise, if_pos (by simpa using hfailures)]
    rw [hwork]
    rcases s.save_frail_cases x.descriptor inv with ⟨e, after, hsave, hafter⟩ |
      ⟨late, after, hsave, -, hafter⟩
    · exact ⟨after, [], by simp, .inl ⟨_, rfl, Work.bind_of_error hsave,
        hafter.trans (Books.enter_nil _).symm⟩⟩
    · exact ⟨after, [], by simp, .inr (.inl ⟨hfailures, Work.bind_of_ok hsave, late, hafter⟩)⟩

/-- A start does nothing, or it attempts to start all instances and goes on from there. -/
theorem start_frail_cases (s : Surroundings ω) (cluster : String) (inv : Invocation (Booked ω)) :
    (∃ e after, (s.frail.start cluster).outcome inv = (.error e, after) ∧
        after.books = inv.books ∧ (e.isMishap = true ∨ e.isRefusal = true ∧
          ∀ d, inv.books.find? cluster = some d → d.state.allows .start = false)) ∨
      ∃ (d : ClusterDescriptor) (x : Starting d) (mid : Invocation (Booked ω)),
        inv.books.Loaded cluster .start d ∧ mid.books = inv.books.enter x.entries ∧
          (s.frail.start cluster).outcome inv =
            (s.frail.rise x.descriptor (failuresOf x.results)).outcome mid := by
  rw [Surroundings.start_eq]
  rcases s.loadFor_frail_cases cluster .start inv with
    ⟨e, after, hload, hafter, hkind⟩ | ⟨d, mid, hloaded, hload, hmid⟩
  · exact .inl ⟨e, after, Work.bind_of_error hload, hafter, hkind⟩
  rw [Work.bind_of_ok hload, Surroundings.cloudsFor_frail]
  cases hclouds : s.booked.cloudsFor d.environments with
  | error e =>
    exact .inl ⟨e, mid, Work.bind_ofExcept_of_error rfl _ _, hmid,
      .inl (s.booked.mishap_cloudsFor _ e hclouds)⟩
  | ok clouds =>
    rw [Work.bind_ofExcept_of_ok rfl, Errand.startJob_eq]
    cases hjobs : d.stoppableMachines.mapM (Errand.starting.job clouds) with
    | error e =>
      exact .inl ⟨e, mid, Work.bind_ofExcept_of_error rfl _ _, hmid,
        .inl (FailsByMishap.mapM (mishap_job Errand.starting clouds) _ e hjobs)⟩
    | ok jobs =>
      obtain ⟨attempts, hserved, hbooks⟩ := Errand.inPool_served hclouds hjobs .starts mid
      rw [hmid] at hbooks
      exact .inr ⟨d, ⟨attempts, _, hserved⟩, _, hloaded, hbooks, by
        rw [Work.bind_ofExcept_of_ok rfl, Work.bind_ofAction]
        rfl⟩

theorem start (s : Surroundings ω) (cluster : String) (inv : Invocation (Booked ω)) :
    Effect cluster inv.books .start (((s.frail.start cluster).outcome inv).1.map some)
      ((s.frail.start cluster).outcome inv).2.books := by
  rcases start_frail_cases s cluster inv with
    ⟨e, after, houtcome, hafter, hkind⟩ | ⟨d, x, mid, hloaded, hmid, houtcome⟩
  · rw [houtcome]
    exact of_error hafter hkind
  rw [houtcome]
  obtain ⟨after, steps, hsteps, hcases⟩ := rise_frail_cases s x mid
  have hinert : ∀ y ∈ steps, y.call.isInert = true := fun y hy =>
    OutsideCall.isInert_of_isRole (hsteps y hy)
  rcases hcases with ⟨e, hmishap, hrise, hafter⟩ | ⟨hfailures, hrise, late, hafter⟩ |
    ⟨hrise, late, hafter⟩
  · rw [hrise, hafter, hmid, Books.enter_enter]
    exact .failed hmishap (isLasting_of_waking x hinert)
  · rw [hrise, hafter, hmid]
    exact .woken hloaded x hfailures
  · rw [hrise, hafter, hmid, Books.enter_enter]
    exact .started hloaded x hinert

/-- A teardown fails after terminations at most, or it attempts all that there is to do. -/
theorem raze_cases (s : Surroundings ω) (d : ClusterDescriptor) (inv : Invocation (Booked ω)) :
    Failed (fun c => c.isLasting = false) inv ((s.booked.raze d).outcome inv) ∨
      ∃ (c : Cleaning d) (after : Invocation (Booked ω)),
        (s.booked.raze d).outcome inv = (.ok c.left, after) ∧
          after.books = inv.books.enter c.entries := by
  cases hclouds : s.booked.cloudsFor d.environments with
  | error e =>
    rw [Surroundings.raze]
    exact .inl (.at_once (Work.bind_ofExcept_of_error hclouds _ _))
  | ok clouds =>
    by_cases hmachines : ∀ m ∈ d.ownedMachines, ∃ env ∈ d.environments, env.name = m.environment
    · by_cases hvolumes : ∀ v ∈ d.sharedStorage, ∃ env ∈ d.environments, env.name = v.environment
      · exact .inr (Surroundings.raze_outcome hclouds hmachines hvolumes inv)
      · obtain ⟨e, after, terminations, hraze, hafter⟩ :=
          Surroundings.raze_of_unlisted_volume hclouds hmachines hvolumes inv
        refine .inl ⟨e, after, _, fun y hy => ?_, hraze, hafter⟩
        obtain ⟨a, -, r, -, rfl⟩ := Errand.mem_flatMap_entries hy
        rfl
    · obtain ⟨e, hraze⟩ := Surroundings.raze_of_unlisted_machine hclouds hmachines inv
      exact .inl (.at_once hraze)

theorem isLasting_of_cleaning {d : ClusterDescriptor} {steps : List JournalEntry}
    (h : ∀ y ∈ steps, y.call.isRole = true) (c : Cleaning d) :
    ∀ y ∈ steps ++ c.entries, y.call.isLasting = false := by
  rw [Cleaning.entries, List.forall_mem_append, List.forall_mem_append]
  refine ⟨fun y hy => OutsideCall.isLasting_of_isRole (h y hy), fun y hy => ?_, fun y hy => ?_⟩
  · obtain ⟨a, -, r, -, rfl⟩ := Errand.mem_flatMap_entries hy
    rfl
  · obtain ⟨a, -, r, -, rfl⟩ := Errand.mem_flatMap_entries hy
    rfl

/-- What is left of a cluster is stored or the cluster is forgotten, unless the store fails. -/
theorem settle_frail_cases {d : ClusterDescriptor} (s : Surroundings ω) (cluster : String)
    (c : Cleaning d) (inv : Invocation (Booked ω)) :
    (∃ e after, (s.frail.settle cluster c.left).outcome inv = (.error (.store e), after) ∧
        after.books = inv.books) ∨
      ∃ late after, (s.frail.settle cluster c.left).outcome inv = (c.answer cluster, after) ∧
        after.books = c.settle cluster late inv.books := by
  rw [Surroundings.settle, Cleaning.answer]
  by_cases hempty : c.left.remaining.isEmpty
  · rw [if_pos hempty, if_pos hempty]
    rcases s.delete_frail_cases cluster inv with hfailed | ⟨late, after, hdelete, hafter⟩
    · exact .inl hfailed
    · exact .inr ⟨late, after, hdelete, by rw [Cleaning.settle, if_pos hempty, hafter]⟩
  · rw [if_neg hempty, if_neg hempty]
    rcases s.save_frail_cases { c.left with state := .failed } inv with
      ⟨e, after, hsave, hafter⟩ | ⟨late, after, hsave, -, hafter⟩
    · exact .inl ⟨e, after, Work.bind_of_error hsave, hafter⟩
    · exact .inr ⟨late, after, (Work.bind_of_ok hsave).trans rfl,
        by rw [Cleaning.settle, if_neg hempty, hafter]⟩

theorem clean (s : Surroundings ω) (cluster : String) (inv : Invocation (Booked ω)) :
    Effect cluster inv.books .clean (((s.frail.clean cluster).outcome inv).1.map fun _ => none)
      ((s.frail.clean cluster).outcome inv).2.books := by
  simp only [Surroundings.clean_eq, Surroundings.tearDown_eq, Surroundings.raze_frail,
    Surroundings.cleanInstalled_frail]
  refine of_loadFor (fun _ => rfl) (fun d mid hloaded => ?_) inv
  rw [Work.bind_ofAction]
  obtain ⟨steps, hsteps, hstepBooks⟩ := Surroundings.enters_cleanInstalled s d mid
  generalize (s.booked.cleanInstalled d mid).2 = next at hstepBooks ⊢
  rcases raze_cases s d next with ⟨e, after, entries, hentries, hraze, hafter⟩ |
    ⟨c, last, hraze, hlast⟩
  · have hmishap := Work.OnlyMishaps.raze s.booked d next
    rw [hraze] at hmishap
    rw [Work.bind_of_error hraze, hafter, hstepBooks, Books.enter_enter]
    refine .failed (hmishap e rfl) (List.forall_mem_append.2 ⟨fun y hy => ?_, hentries⟩)
    exact OutsideCall.isLasting_of_isRole (hsteps y hy)
  rw [Work.bind_of_ok hraze]
  rcases settle_frail_cases s cluster c last with
    ⟨e, after, hsettle, hafter⟩ | ⟨late, after, hsettle, hafter⟩
  · rw [hsettle, hafter, hlast, hstepBooks, Books.enter_enter]
    exact .failed rfl (isLasting_of_cleaning hsteps c)
  · rw [hsettle, hafter, hlast, hstepBooks, Books.enter_enter]
    exact .cleaned hloaded hsteps c

end Effect

end BenchCluster
