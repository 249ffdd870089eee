import BenchCluster.Proofs.Journal.Restraint
import BenchCluster.Proofs.Journal.Upbringing

/-! # Configuration errors

Clouds and clients that are not known, topologies that do not fit their descriptors, implementations
that are not known and parameters that cannot be read are configuration errors. The steps of an
operation look for them where they need what may be wrong: what has been called before one is found
depends on the operation.
-/

namespace BenchCluster

variable {ω α β : Type}

/-- Whether an error says that a cluster is configured in a way that cannot work. -/
def OrchestratorError.isMisconfiguration : OrchestratorError → Bool
  | .topology _ => true
  | .unknownCloud .. => true
  | .cloud (.unknownClient _) => true
  | .role (.unknownImplementation _) => true
  | .role (.invalidParameter ..) => true
  | _ => false

/-- Whether a call only asks a cloud if it runs something. -/
def OutsideCall.isInquiry : OutsideCall → Bool
  | .isRunning .. => true
  | _ => false

abbrev Work.FindsNone (x : Work ω α) : Prop :=
  x.FailsOnly fun e => e.isMisconfiguration = false

theorem Work.FindsNone.ne_error {x : Work ω α} {inv after : Invocation ω} {e : OrchestratorError}
    (hx : x.FindsNone) (he : e.isMisconfiguration = true) : x.outcome inv ≠ (.error e, after) := by
  intro h
  have hnone := hx inv e (congrArg Prod.fst h)
  exact Bool.false_ne_true (hnone.symm.trans he)

namespace Chore

def cleaning : Chore Unit := ⟨Role.clean, .clean, fun _ _ _ => rfl⟩

def stopping : Chore Unit := ⟨Role.stop, .stop, fun _ _ _ => rfl⟩

theorem Served.names {c : Chore α} {built : List (BuiltRole ω)} {reports : List (RoleReport ω α)}
    (h : c.Served built reports) :
    reports.map (fun r => r.done.name) = built.map BuiltRole.name := by
  rw [← h.done_eq, List.map_map]
  rfl

/-- A phase enters the calls of its roles, whether it is passed or not. -/
theorem runPhase_served (s : Surroundings ω) (c : Chore Unit) (phase : Phase)
    (built : List (BuiltRole ω)) (inv : Invocation (Booked ω)) :
    ∃ reports, c.Served built reports ∧
      ((runPhase phase c.step (built.map s.bookEntry)).outcome inv).2.books =
        inv.books.enter (reports.map c.entry) := by
  obtain ⟨reports, after, hserved, hafter, ⟨e, herror⟩ | ⟨hok, -⟩⟩ :=
    runPhase_cases s c phase built inv
  · exact ⟨reports, hserved, by rw [herror, hafter]⟩
  · exact ⟨reports, hserved, by rw [hok, hafter]⟩

end Chore

/-- How an operation on a cluster with a descriptor finds a configuration error, and the calls it
has made before. -/
inductive Misconfigured (s : Surroundings ω) (cluster : String) (d : ClusterDescriptor) :
    Request → OrchestratorError → List JournalEntry → Prop
  /-- An allocation needs all clients first. -/
  | allocateClouds {force : Bool} {e : OrchestratorError}
      (clouds : s.cloudsFor d.environments = .error e) :
      Misconfigured s cluster d (.allocate force) e []
  | allocateRoles {force : Bool} {e : OrchestratorError}
      (provisions : d.provisions cluster = .error e) :
      Misconfigured s cluster d (.allocate force) e []
  /-- An installation needs all roles first. -/
  | installRoles {e : OrchestratorError} (roles : s.rolesOf d = .error e) :
      Misconfigured s cluster d .install e []
  /-- A proxy finds something wrong when it is led to what stands below it. -/
  | installProxy {e : RoleError} {built : List (BuiltRole ω)} {calls : List JournalEntry}
      (roles : (s.rolesOf d).isOk = true) (builds : ∀ x ∈ built, s.Builds d x)
      (misled : Misled built calls e) : Misconfigured s cluster d .install (.role e) calls
  /-- A stop needs all roles first. -/
  | stopRoles {e : OrchestratorError} (roles : s.rolesOf d = .error e) :
      Misconfigured s cluster d .stop e []
  /-- It needs the clients once the roles have been stopped. -/
  | stopClouds {e : OrchestratorError} {reports : List (RoleReport ω Unit)}
      (roles : (s.rolesOf d).isOk = true)
      (names : reports.map (fun r => r.done.name) = d.topology.rolesInOrder)
      (clouds : s.cloudsFor d.environments = .error e) :
      Misconfigured s cluster d .stop e (reports.map Chore.stopping.entry)
  /-- A start needs all clients first. -/
  | startClouds {e : OrchestratorError} (clouds : s.cloudsFor d.environments = .error e) :
      Misconfigured s cluster d .start e []
  /-- It needs the roles once the instances have been started. -/
  | startRoles {e : OrchestratorError} (clouds : (s.cloudsFor d.environments).isOk = true)
      (x : Starting d) (up : failuresOf x.results = [])
      (roles : s.rolesOf x.descriptor = .error e) : Misconfigured s cluster d .start e x.entries
  /-- A cleanup needs the clients once the roles have been cleaned up, as far as there are any. -/
  | cleanClouds {e : OrchestratorError} {reports : List (RoleReport ω Unit)}
      (names : reports.map (fun r => r.done.name) =
        if d.mayHaveRoles && (s.rolesOf d).isOk then d.topology.rolesInOrder else [])
      (clouds : s.cloudsFor d.environments = .error e) :
      Misconfigured s cluster d .clean e (reports.map Chore.cleaning.entry)

namespace Surroundings

variable {s : Surroundings ω} {cluster : String} {d : ClusterDescriptor}
  {inv after : Invocation (Booked ω)} {e : OrchestratorError}

/-! ## Steps that find no configuration errors -/

theorem loadFor_findsNone (s : Surroundings ω) (cluster : String) (operation : Operation) :
    (s.loadFor cluster operation).FindsNone :=
  .bind (.ofFallible (fun _ => by rfl) _) fun _ => .bind (.wrapped (fun _ => by rfl) _) fun _ =>
    .bind (.checkInterrupted (by rfl) s) fun _ => .pure _

theorem save_findsNone (s : Surroundings ω) (d : ClusterDescriptor) : (s.save d).FindsNone :=
  .ofFallible (fun _ => by rfl) _

theorem runPhase_findsNone (phase : Phase) (step : Role ω → Action ω (Except RoleError Unit))
    (roles : List (RoleEntry ω)) : (runPhase phase step roles).FindsNone :=
  .runPhase (fun _ _ => by rfl) phase step roles

theorem jobs_findNone {ρ : Type} (e : Errand ρ α) (clouds : Dict (Cloud ω)) (requests : List ρ) :
    FailsOnly (fun e => e.isMisconfiguration = false) (requests.mapM (e.job clouds)) :=
  .mapM (.job (fun _ => rfl) e clouds) requests

theorem settle_findsNone (s : Surroundings ω) (cluster : String) (left : ClusterDescriptor) :
    (s.settle cluster left).FindsNone :=
  .ite (.ofFallible (fun _ => by rfl) _) (.bind (s.save_findsNone _) fun _ => .throw (by rfl))

theorem report_findsNone (cluster : String) (d : ClusterDescriptor) (allocation : Allocation) :
    (report (ω := ω) cluster d allocation).FindsNone :=
  .ite (.pure _) (.throw (by rfl))

theorem prepare_findsNone (s : Surroundings ω) (d : ClusterDescriptor) : (s.prepare d).FindsNone :=
  .bind (.ofExcept (.hostsOf (fun _ => by rfl) _ _)) fun _ => .ite (.pure _)
    (.bind (.ofAction _) fun _ => .bind (.wrapped (fun _ => by rfl) _) fun _ => .pure _)

theorem checkInterrupted_findsNone (s : Surroundings ω) : s.checkInterrupted.FindsNone :=
  .checkInterrupted (by rfl) s

theorem eq_of_checkInterrupted {s : Surroundings ω} {inv after : Invocation ω} {u : Unit}
    (h : s.checkInterrupted.outcome inv = (.ok u, after)) : after = inv := by
  rw [outcome_checkInterrupted] at h
  exact (congrArg Prod.snd h).symm

theorem setUp_findsNone (s : Surroundings ω) (environments : List Environment)
    (roles : List (RoleEntry ω)) : (s.setUp environments roles).FindsNone :=
  .bind (.forM (fun _ => .bind (.checkInterrupted (by rfl) s) fun _ => runPhase_findsNone _ _ _) _)
    fun _ => .bind (.checkInterrupted (by rfl) s) fun _ => .bind (.ofAction _) fun _ =>
    .bind (.ofExcept (.checkPhase (fun _ _ => by rfl) _ _)) fun _ =>
    .bind (.checkInterrupted (by rfl) s) fun _ => .pure _

/-! ## The operations -/

theorem misconfigured_of_loadFor {operation : Operation}
    {rest : ClusterDescriptor → Work (Booked ω) α} (he : e.isMisconfiguration = true)
    (h : (s.frail.loadFor cluster operation >>= rest).outcome inv = (.error e, after)) :
    ∃ d mid, inv.books.find? cluster = some d ∧ mid.books = inv.books ∧
      (rest d).outcome mid = (.error e, after) := by
  obtain ⟨d, mid, hload, hrest⟩ :=
    (s.frail.loadFor_findsNone cluster operation).error_of_rest (by simp [he]) h
  rcases s.loadFor_frail_cases cluster operation inv with
    ⟨e', last, hfailed, -⟩ | ⟨d', last, hloaded, hok, hlast⟩
  · rw [hfailed] at hload
    cases hload
  · rw [hok] at hload
    cases hload
    exact ⟨d, mid, hloaded.stored, hlast, hrest⟩

theorem misconfigured_of_work {operation : Operation} {request : Request}
    {work : ClusterDescriptor → Work (Booked ω) α} {rest : ClusterDescriptor → α → Work (Booked ω) β}
    (hrest : ∀ d a, (rest d a).FindsNone) (he : e.isMisconfiguration = true)
    (hwork : ∀ {d mid}, inv.books.find? cluster = some d →
      (work d).outcome mid = (.error e, after) →
        ∃ calls, Misconfigured s cluster d request e calls ∧ after.books = mid.books.enter calls)
    (h : (s.frail.loadFor cluster operation >>= fun d => work d >>= rest d).outcome inv =
      (.error e, after)) :
    ∃ d, inv.books.find? cluster = some d ∧ ∃ calls,
      Misconfigured s cluster d request e calls ∧ after.books = inv.books.enter calls := by
  obtain ⟨d, mid, hd, hmid, h⟩ := misconfigured_of_loadFor he h
  rw [← hmid]
  exact ⟨d, hmid ▸ hd, hwork hd (Work.FailsOnly.error_of_first (hrest d) (by simp [he]) h)⟩

theorem checkVacant_findsNone (s : Surroundings ω) (cluster : String) (force : Bool) :
    (s.checkVacant cluster force).FindsNone := by
  rw [checkVacant]
  have hreplace : (s.load cluster >>= fun existing =>
      if (!existing.isReplaceable) = true then
        throw (.holdsResources cluster existing.state)
      else pure () : Work ω Unit).FindsNone :=
    .bind (.ofFallible (fun _ => by rfl) _) fun _ => .ite (.throw (by rfl)) (.pure _)
  exact .bind (.ofFallible (fun _ => by rfl) _) fun _ =>
    .ite (.ite (.bind (.throw (by rfl)) fun _ => hreplace) hreplace) (.pure _)

/-- A configuration only asks clouds if they run something before it finds a configuration error. -/
theorem configure_misconfigured {documents : Documents} {implementation : String} {force : Bool}
    (he : e.isMisconfiguration = true)
    (h : (s.frail.configure cluster documents implementation force).outcome inv =
      (.error e, after)) :
    ∃ calls, (∀ x ∈ calls, x.call.isInquiry = true) ∧ after.books = inv.books.enter calls := by
  rw [configure] at h
  obtain ⟨_, next, hgo, hrest⟩ :=
    (checkInterrupted_findsNone s.frail).error_of_rest (by simp [he]) h
  obtain rfl := eq_of_checkInterrupted hgo
  obtain ⟨_, mid, hvacant, hplanning⟩ :=
    (s.frail.checkVacant_findsNone cluster force).error_of_rest (by simp [he]) hrest
  have hmid : mid.books = next.books := by
    rcases Effect.checkVacant_frail_cases s cluster force documents implementation next with
      ⟨e', last, hfailed, hlast, -⟩ | ⟨last, hok, hlast, -⟩
    · rw [hvacant] at hfailed
      cases hfailed
    · rw [hvacant] at hok
      cases hok
      exact hlast
  rw [← hmid]
  cases hplan : documents.plan implementation with
  | error e' =>
    rw [Work.bind_ofExcept_of_error hplan] at hplanning
    cases hplanning
    cases he
  | ok plan =>
    rw [Work.bind_ofExcept_of_ok hplan] at hplanning
    cases hnames : plan.expand with
    | error e' =>
      rw [Work.bind_ofExcept_of_error hnames] at hplanning
      cases hplanning
      exact ⟨[], by simp, (Books.enter_nil _).symm⟩
    | ok names =>
      rw [Work.bind_ofExcept_of_ok hnames] at hplanning
      have hidle := Work.FailsOnly.error_of_first (fun _ => .bind (.ofAction _) fun _ =>
        .bind (s.frail.save_findsNone _) fun _ => .pure _) (by simp [he]) hplanning
      have henters : Enters (fun c => c.isInquiry = true)
          (plan.environments.forM (s.booked.checkIdle cluster documents.clouds)).outcome :=
        Enters.work_forM fun env => by
          refine carries_checkIdle (R := Entered fun c => c.isInquiry = true) (fun c => ?_)
            documents.clouds
          exact Enters.journaled (P := fun c => c.isInquiry = true) fun _ => rfl
      obtain ⟨calls, hcalls, hafter⟩ := henters mid
      exact ⟨calls, hcalls, (congrArg (fun r => r.2.books) hidle).symm.trans hafter⟩

theorem acquire_misconfigured (force : Bool) (he : e.isMisconfiguration = true)
    (h : (s.booked.acquire cluster d).outcome inv = (.error e, after)) :
    ∃ calls, Misconfigured s cluster d (.allocate force) e calls ∧
      after.books = inv.books.enter calls := by
  rcases Work.error_of_ofExcept h with ⟨hclouds, rfl⟩ | ⟨clouds, -, h⟩
  · exact ⟨[], .allocateClouds ((s.alike_cloudsFor d.environments e).1 hclouds),
      (Books.enter_nil _).symm⟩
  rcases Work.error_of_ofExcept h with ⟨hprovisions, rfl⟩ | ⟨provisions, -, h⟩
  · exact ⟨[], .allocateRoles hprovisions, (Books.enter_nil _).symm⟩
  · refine absurd h (Work.FindsNone.ne_error ?_ he)
    exact .bind (.ofExcept (jobs_findNone Errand.launching clouds _)) fun _ =>
      .bind (.ofExcept (jobs_findNone Errand.creating clouds _)) fun _ =>
      .bind (.ofAction _) fun _ => .bind (.ofAction _) fun _ => .pure _

theorem allocate_misconfigured {force : Bool} (he : e.isMisconfiguration = true)
    (h : (s.frail.allocate cluster force).outcome inv = (.error e, after)) :
    ∃ d, inv.books.find? cluster = some d ∧ ∃ calls,
      Misconfigured s cluster d (.allocate force) e calls ∧
        after.books = inv.books.enter calls := by
  rw [allocate_eq] at h
  exact misconfigured_of_work (fun _ _ => .bind (s.frail.save_findsNone _)
    fun _ => report_findsNone _ _ _) he (fun _ hacquire => acquire_misconfigured force he hacquire) h

theorem make_findsNone (s : Surroundings ω) (cluster : String) : (s.make cluster).FindsNone := by
  rw [make_eq]
  exact .bind (s.loadFor_findsNone cluster .make) fun d => .bind (s.prepare_findsNone d) fun _ =>
    .pure _

theorem bringUp_misconfigured (cluster : String) (hd : d.Numbered)
    (he : e.isMisconfiguration = true)
    (h : (s.booked.bringUp d).outcome inv = (.error e, after)) :
    ∃ calls, Misconfigured s cluster d .install e calls ∧ after.books = inv.books.enter calls := by
  rw [bringUp_eq] at h
  rcases Work.error_of_ofExcept h with ⟨hroles, rfl⟩ | ⟨⟨tree, roles⟩, hroles, h⟩
  · exact ⟨[], .installRoles ((s.alike_rolesOf d e).1 hroles), (Books.enter_nil _).symm⟩
  obtain ⟨targets, mid, hok, h⟩ :=
    (s.booked.setUp_findsNone d.environments roles).error_of_rest (by simp [he]) h
  obtain ⟨entries, -, hmid⟩ := enters_setUp (implementation_of_rolesOf hroles) d.environments inv
  rw [hok] at hmid
  have hbuilt : (s.rolesOf d).isOk = true := by
    rw [← (s.alike_rolesOf d).isOk_eq, hroles]
    rfl
  obtain ⟨htree, built, rfl, -, hbuilds⟩ := rolesOf_booked hd hroles
  obtain ⟨calls, last, hlast, -, ⟨e', herror, hmisled⟩ | ⟨result, hresult, -⟩⟩ :=
    chainTargets_cases s built htree targets none mid
  · rw [h] at herror
    cases herror
    refine ⟨entries ++ calls, .installProxy hbuilt hbuilds (hmisled.append entries), ?_⟩
    rw [hlast, hmid, Books.enter_enter]
  · rw [h] at hresult
    cases hresult

theorem install_misconfigured (hb : inv.books.Every fun _ d => d.Numbered)
    (he : e.isMisconfiguration = true)
    (h : (s.frail.install cluster).outcome inv = (.error e, after)) :
    ∃ d, inv.books.find? cluster = some d ∧ ∃ calls,
      Misconfigured s cluster d .install e calls ∧ after.books = inv.books.enter calls := by
  rw [install_eq] at h
  exact misconfigured_of_work (fun _ _ => .bind (s.frail.save_findsNone _) fun _ => .pure _) he
    (fun hd hbringUp => bringUp_misconfigured cluster (hb cluster _ hd) he hbringUp) h

theorem bringDown_misconfigured (cluster : String) (hd : d.Numbered)
    (he : e.isMisconfiguration = true)
    (h : (s.booked.bringDown d).outcome inv = (.error e, after)) :
    ∃ calls, Misconfigured s cluster d .stop e calls ∧ after.books = inv.books.enter calls := by
  rcases Work.error_of_ofExcept h with ⟨hroles, rfl⟩ | ⟨⟨tree, roles⟩, hroles, h⟩
  · exact ⟨[], .stopRoles ((s.alike_rolesOf d e).1 hroles), (Books.enter_nil _).symm⟩
  have hbuilt : (s.rolesOf d).isOk = true := by
    rw [← (s.alike_rolesOf d).isOk_eq, hroles]
    rfl
  obtain ⟨-, built, rfl, hnames, -⟩ := rolesOf_booked hd hroles
  obtain ⟨_, mid, hstops, h⟩ :=
    (runPhase_findsNone .stop Role.stop _).error_of_rest (by simp [he]) h
  obtain ⟨reports, hserved, hmid⟩ := Chore.runPhase_served s .stopping .stop built inv
  obtain ⟨_, next, hgo, hrest⟩ :=
    (checkInterrupted_findsNone s.booked).error_of_rest (by simp [he]) h
  obtain rfl := eq_of_checkInterrupted hgo
  rcases Work.error_of_ofExcept hrest with ⟨hclouds, rfl⟩ | ⟨clouds, -, h⟩
  · refine ⟨_, .stopClouds hbuilt (hserved.names.trans hnames)
      ((s.alike_cloudsFor d.environments e).1 hclouds), ?_⟩
    rw [← hmid]
    exact congrArg (fun r => r.2.books) hstops.symm
  · refine absurd h (Work.FindsNone.ne_error ?_ he)
    exact .bind (.ofExcept (jobs_findNone Errand.stopping clouds _)) fun _ =>
      .bind (.ofAction _) fun _ => .ite (.throw (by rfl)) (.pure _)

theorem stop_misconfigured (hb : inv.books.Every fun _ d => d.Numbered)
    (he : e.isMisconfiguration = true)
    (h : (s.frail.stop cluster).outcome inv = (.error e, after)) :
    ∃ d, inv.books.find? cluster = some d ∧ ∃ calls,
      Misconfigured s cluster d .stop e calls ∧ after.books = inv.books.enter calls := by
  rw [stop_eq] at h
  exact misconfigured_of_work (fun _ _ => .bind (s.frail.save_findsNone _) fun _ => .pure _) he
    (fun hd hbringDown => bringDown_misconfigured cluster (hb cluster _ hd) he hbringDown) h

theorem rise_misconfigured {failures : List String} (he : e.isMisconfiguration = true)
    (h : (s.frail.rise d failures).outcome inv = (.error e, after)) :
    failures = [] ∧ s.rolesOf d = .error e ∧ after = inv := by
  rw [rise] at h
  by_cases hfailures : failures = []
  · rw [if_neg (by simp [hfailures])] at h
    have hwake := Work.FailsOnly.error_of_first (fun _ => .bind (s.frail.save_findsNone _)
      fun _ => .pure _) (by simp [he]) h
    obtain ⟨_, next, hgo, hrest⟩ :=
      (checkInterrupted_findsNone s.frail).error_of_rest (by simp [he]) hwake
    obtain rfl := eq_of_checkInterrupted hgo
    rcases Work.error_of_ofExcept hrest with ⟨hroles, rfl⟩ | ⟨built, -, hphase⟩
    · exact ⟨hfailures, (s.alike_rolesOf d e).1 hroles, rfl⟩
    · exact absurd hphase (Work.FindsNone.ne_error (runPhase_findsNone _ _ _) he)
  · rw [if_pos (by simpa using hfailures)] at h
    refine absurd h (Work.FindsNone.ne_error ?_ he)
    exact .bind (s.frail.save_findsNone _) fun _ => .throw (by rfl)

theorem start_misconfigured (he : e.isMisconfiguration = true)
    (h : (s.frail.start cluster).outcome inv = (.error e, after)) :
    ∃ d, inv.books.find? cluster = some d ∧ ∃ calls,
      Misconfigured s cluster d .start e calls ∧ after.books = inv.books.enter calls := by
  rw [start_eq] at h
  obtain ⟨d, mid, hd, hmid, h⟩ := misconfigured_of_loadFor he h
  refine ⟨d, hd, ?_⟩
  rcases Work.error_of_ofExcept h with ⟨hfailed, rfl⟩ | ⟨clouds, hclouds, h⟩
  · exact ⟨[], .startClouds ((s.alike_cloudsFor d.environments e).1 hfailed),
      by rw [hmid, Books.enter_nil]⟩
  rw [cloudsFor_frail] at hclouds
  have hmade : (s.cloudsFor d.environments).isOk = true := by
    rw [← (s.alike_cloudsFor d.environments).isOk_eq, hclouds]
    rfl
  rw [Errand.startJob_eq] at h
  rcases Work.error_of_ofExcept h with ⟨hfailed, -⟩ | ⟨jobs, hjobs, h⟩
  · have hnone := jobs_findNone Errand.starting clouds d.stoppableMachines e hfailed
    exact absurd he (by simp [hnone])
  obtain ⟨attempts, hserved, hbooks⟩ := Errand.inPool_served hclouds hjobs .starts mid
  let x : Starting d := ⟨attempts, _, hserved⟩
  rw [hmid] at hbooks
  have hrise : (s.frail.rise x.descriptor (failuresOf x.results)).outcome
      (s.booked.inPool .starts jobs mid).2 = (.error e, after) := by
    rw [Work.bind_ofAction] at h
    exact h
  obtain ⟨hup, hroles, rfl⟩ := rise_misconfigured he hrise
  exact ⟨x.entries, .startRoles hmade x hup hroles, hbooks⟩

theorem cleanInstalled_reports (hd : d.Numbered) (inv : Invocation (Booked ω)) :
    ∃ reports : List (RoleReport ω Unit),
      reports.map (fun r => r.done.name) =
        (if d.mayHaveRoles && (s.rolesOf d).isOk then d.topology.rolesInOrder else []) ∧
      (s.booked.cleanInstalled d inv).2.books =
        inv.books.enter (reports.map Chore.cleaning.entry) := by
  have hsame := (s.alike_rolesOf d).isOk_eq
  rw [cleanInstalled]
  cases hmay : d.mayHaveRoles with
  | false => exact ⟨[], rfl, (Books.enter_nil _).symm⟩
  | true =>
    rw [if_pos rfl, cleanRoles, ← hsame]
    cases hroles : s.booked.rolesOf d with
    | error e => exact ⟨[], rfl, (Books.enter_nil _).symm⟩
    | ok built =>
      obtain ⟨tree, roles⟩ := built
      obtain ⟨-, built, rfl, hnames, -⟩ := rolesOf_booked hd hroles
      obtain ⟨reports, hserved, -, hbooks⟩ := Chore.onEveryRole_served s .cleaning built inv
      exact ⟨reports, hserved.names.trans hnames, hbooks⟩

theorem clean_misconfigured (hb : inv.books.Every fun _ d => d.Numbered)
    (he : e.isMisconfiguration = true)
    (h : (s.frail.clean cluster).outcome inv = (.error e, after)) :
    ∃ d, inv.books.find? cluster = some d ∧ ∃ calls,
      Misconfigured s cluster d .clean e calls ∧ after.books = inv.books.enter calls := by
  simp only [clean_eq, tearDown_eq, raze_frail, cleanInstalled_frail] at h
  obtain ⟨d, mid, hd, hmid, h⟩ := misconfigured_of_loadFor he h
  obtain ⟨reports, hnames, hreports⟩ :=
    cleanInstalled_reports (s := s) (hb cluster d hd) mid
  rw [Work.bind_ofAction] at h
  have hraze := Work.FailsOnly.error_of_first (fun _ => s.frail.settle_findsNone cluster _)
    (by simp [he]) h
  rcases Work.error_of_ofExcept hraze with ⟨hclouds, rfl⟩ | ⟨clouds, -, h⟩
  · exact ⟨d, hd, _, .cleanClouds hnames ((s.alike_cloudsFor d.environments e).1 hclouds),
      by rw [hreports, hmid]⟩
  · refine absurd h (Work.FindsNone.ne_error ?_ he)
    exact .bind (.ofExcept (jobs_findNone Errand.terminating clouds _)) fun _ =>
      .bind (.ofAction _) fun _ => .bind (.ofExcept (jobs_findNone Errand.destroying clouds _)) fun _ =>
      .bind (.ofAction _) fun _ => .pure _

/-- An operation that finds a configuration error has only asked clouds if they run something, when
it makes a plan, or it has found the error in one of the ways there are for a stored descriptor. -/
theorem serve_misconfigured {request : Request} (hsingle : request.stages = [request])
    (hb : inv.books.Every fun _ d => d.Numbered) (he : e.isMisconfiguration = true)
    (h : (s.frail.serve cluster request).outcome inv = (.error e, after)) :
    (request.isPlanning = true ∧ ∃ calls, (∀ x ∈ calls, x.call.isInquiry = true) ∧
        after.books = inv.books.enter calls) ∨
      ∃ d, inv.books.find? cluster = some d ∧ ∃ calls,
        Misconfigured s cluster d request e calls ∧ after.books = inv.books.enter calls := by
  have hfirst : ∀ {α : Type} {x : Work (Booked ω) α} {f : α → Option ClusterDescriptor},
      (x >>= fun a => return f a).outcome inv = (.error e, after) →
        x.outcome inv = (.error e, after) :=
    fun h => Work.FailsOnly.error_of_first (P := fun e => e.isMisconfiguration = false)
      (fun _ => .pure _) (by simp [he]) h
  cases request with
  | configure documents implementation force =>
    exact .inl ⟨rfl, configure_misconfigured he (hfirst h)⟩
  | allocate force => exact .inr (allocate_misconfigured he (hfirst h))
  | make => exact absurd (hfirst h) (Work.FindsNone.ne_error (s.frail.make_findsNone cluster) he)
  | install => exact .inr (install_misconfigured hb he (hfirst h))
  | stop => exact .inr (stop_misconfigured hb he (hfirst h))
  | start => exact .inr (start_misconfigured he (hfirst h))
  | clean => exact .inr (clean_misconfigured hb he (hfirst h))
  | all documents implementation force => cases hsingle

end Surroundings

/-- How an operation of a run finds a configuration error. -/
theorem Turn.misconfigured (t : Turn) (hsingle : t.request.stages = [t.request]) {b : Books}
    (hb : b.Every fun _ d => d.Numbered) {e : OrchestratorError} (he : e.isMisconfiguration = true)
    (h : (t.venture b).1 = .error e) :
    (t.request.isPlanning = true ∧ ∃ calls, (∀ x ∈ calls, x.call.isInquiry = true) ∧
        (t.venture b).2 = b.enter calls) ∨
      ∃ d, b.find? t.cluster = some d ∧ ∃ calls,
        Misconfigured t.surroundings t.cluster d t.request e calls ∧
          (t.venture b).2 = b.enter calls :=
  t.surroundings.serve_misconfigured hsingle hb he (Prod.ext h rfl)

end BenchCluster
