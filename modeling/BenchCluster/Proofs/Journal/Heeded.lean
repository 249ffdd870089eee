import BenchCluster.Proofs.Orchestrator.Carried
import BenchCluster.Proofs.Journal.Recorded
import BenchCluster.Proofs.Journal.Upbringing

/-! # What is done after the user has asked to stop

The flag is looked at before an operation begins, before every job of a pool and between the
stretches of an operation. Wherever it is set, the stretch that has begun is brought to its end and
the descriptor may be stored, but no job and no other stretch begins.
-/

namespace BenchCluster

variable {ω α β ε : Type}

inductive PoolJob
  | launch (request : LaunchRequest)
  | create (request : StorageRequest)
  | terminate (machine : Machine)
  | destroy (volume : Volume)
  | stop (machine : Machine)
  | start (machine : Machine)
  deriving DecidableEq

/-- The stretches of operations that are not looked into once they have begun. -/
inductive Stretch
  | inquiry
  | preparation
  | configuration (environment : String)
  | installation
  | chaining
  | stopping
  | starting
  | cleaning
  deriving DecidableEq

def RoleStep.stretch (context : RoleContext) : RoleStep → Stretch
  | .configure _ => .configuration context.environment.name
  | .install _ => .installation
  | .clean _ => .cleaning
  | .start _ => .starting
  | .stop _ => .stopping
  | .postInstall .. => .chaining

namespace OutsideCall

def job? : OutsideCall → Option PoolJob
  | .launch _ r _ => some (.launch r)
  | .createVolume _ r _ => some (.create r)
  | .terminate _ m _ => some (.terminate m)
  | .destroyVolume _ v _ => some (.destroy v)
  | .stopMachine _ m _ => some (.stop m)
  | .startMachine _ m _ => some (.start m)
  | _ => none

/-- The stretch that a call belongs to. Jobs of pools and writes to the store belong to none. -/
def stretch? : OutsideCall → Option Stretch
  | .isRunning .. => some .inquiry
  | .exec .. => some .preparation
  | .copy .. => some .preparation
  | .role context step => some (step.stretch context)
  | _ => none

theorem job?_of_stretch? {c : OutsideCall} {k : Stretch} (h : c.stretch? = some k) :
    c.job? = none := by
  cases c <;> first | rfl | cases h

theorem job?_of_isWrite {c : OutsideCall} (h : c.isWrite = true) : c.job? = none := by
  cases c <;> first | rfl | cases h

end OutsideCall

/-- Once the user has asked to stop, a call is made only if it writes to the store or goes on with
the stretch of the call before it. -/
def Heeded (calls : List JournalEntry) : Prop :=
  ∀ first x rest, calls = first ++ x :: rest → x.late = true → x.call.isWrite = true ∨
    ∃ y ∈ first.getLast?, ∃ k, y.call.stretch? = some k ∧ x.call.stretch? = some k

namespace Heeded

variable {calls more : List JournalEntry}

theorem nil : Heeded [] := by
  intro first x rest h
  cases first <;> cases h

theorem append (h : Heeded calls) (hmore : Heeded more) : Heeded (calls ++ more) := by
  intro first x rest hsplit hlate
  rcases eq_append_cons_cases hsplit with ⟨l, hl⟩ | ⟨l, rfl, hl⟩
  · exact h first x l hl hlate
  · refine (hmore l x rest hl hlate).imp id ?_
    rintro ⟨y, hy, hstretch⟩
    refine ⟨y, ?_, hstretch⟩
    rw [List.getLast?_append, Option.mem_def.1 hy]
    rfl

theorem of_forall (h : ∀ x ∈ calls, x.late = true → x.call.isWrite = true) : Heeded calls := by
  rintro first x rest rfl hlate
  exact .inl (h x (by simp) hlate)

theorem of_stretch {k : Stretch} (h : ∀ x ∈ calls, x.call.stretch? = some k)
    (hfirst : ∀ x ∈ calls.head?, x.late = false) : Heeded calls := by
  rintro first x rest rfl hlate
  cases first using List.reverseRecOn with
  | nil =>
    have hx := hfirst x rfl
    rw [hlate] at hx
    cases hx
  | append_singleton first y =>
    exact .inr ⟨y, List.getLast?_concat, k, h y (by simp), h x (by simp)⟩

theorem late_of_job (h : Heeded calls) {x : JournalEntry} (hx : x ∈ calls)
    {job : PoolJob} (hjob : x.call.job? = some job) : x.late = false := by
  obtain ⟨first, rest, hsplit⟩ := List.append_of_mem hx
  rw [← Bool.not_eq_true]
  intro hlate
  rcases h first x rest hsplit hlate with hwrite | ⟨y, -, k, -, hk⟩
  · rw [OutsideCall.job?_of_isWrite hwrite] at hjob
    cases hjob
  · rw [OutsideCall.job?_of_stretch? hk] at hjob
    cases hjob

end Heeded

/-! ## Invocations -/

/-- An invocation has heeded the user, and the jobs that it has begun are of one kind. -/
def Heeds (jobs : PoolJob → Prop) (inv after : Invocation (Booked ω)) : Prop :=
  ∃ calls, after.books.journal = inv.books.journal ++ calls ∧
    (∀ x ∈ calls, ∀ job, x.call.job? = some job → jobs job) ∧ Heeded calls

/-- An invocation has made calls of one stretch, the first of them with the flag as it was. -/
def Pursues (s : Surroundings ω) (k : Stretch) (inv after : Invocation (Booked ω)) : Prop :=
  ∃ calls, after.books.journal = inv.books.journal ++ calls ∧
    (∀ x ∈ calls, x.call.stretch? = some k) ∧
    (calls.head?.map JournalEntry.late).getD (s.interrupted after.outside.world) =
      s.interrupted inv.outside.world

variable {s : Surroundings ω} {jobs : PoolJob → Prop} {k : Stretch}

instance : IsPreorder (Invocation (Booked ω)) (Heeds jobs) where
  refl inv := ⟨[], by simp, by simp, .nil⟩
  trans inv mid after := by
    rintro ⟨calls, hcalls, hjobs, hheeded⟩ ⟨more, hmore, hmoreJobs, hmoreHeeded⟩
    refine ⟨calls ++ more, by rw [hmore, hcalls, List.append_assoc], fun x hx => ?_,
      hheeded.append hmoreHeeded⟩
    rcases List.mem_append.1 hx with hx | hx
    · exact hjobs x hx
    · exact hmoreJobs x hx

instance : IsPreorder (Invocation (Booked ω)) (Pursues s k) where
  refl inv := ⟨[], by simp, by simp, rfl⟩
  trans inv mid after := by
    rintro ⟨calls, hcalls, hstretch, hfirst⟩ ⟨more, hmore, hmoreStretch, hmoreFirst⟩
    refine ⟨calls ++ more, by rw [hmore, hcalls, List.append_assoc], fun x hx => ?_, ?_⟩
    · rcases List.mem_append.1 hx with hx | hx
      · exact hstretch x hx
      · exact hmoreStretch x hx
    · cases calls with
      | nil => exact hmoreFirst.trans hfirst
      | cons y calls => exact hfirst

theorem Heeds.of_write {inv after : Invocation (Booked ω)} {late : Bool} {c : OutsideCall}
    (hafter : after.books.journal = inv.books.journal ++ [⟨late, c⟩]) (hwrite : c.isWrite = true) :
    Heeds jobs inv after := by
  refine ⟨[⟨late, c⟩], hafter, fun x hx job hjob => ?_, .of_forall fun x hx _ => ?_⟩
  · rw [List.mem_singleton.1 hx, OutsideCall.job?_of_isWrite hwrite] at hjob
    cases hjob
  · rw [List.mem_singleton.1 hx]
    exact hwrite

/-- A stretch that is begun in time heeds the user. -/
theorem Pursues.heeds {inv after : Invocation (Booked ω)} (h : Pursues s k inv after)
    (hgo : s.interrupted inv.outside.world = false) : Heeds jobs inv after := by
  obtain ⟨calls, hcalls, hstretch, hfirst⟩ := h
  refine ⟨calls, hcalls, fun x hx job hjob => ?_, .of_stretch hstretch fun x hx => ?_⟩
  · rw [OutsideCall.job?_of_stretch? (hstretch x hx)] at hjob
    cases hjob
  · rw [Option.mem_def.1 hx, hgo] at hfirst
    exact hfirst

theorem Pursues.journaled {entry : α → OutsideCall} {act : Action ω α}
    (h : ∀ a, (entry a).stretch? = some k) : Carries (Pursues s k) (s.journaled entry act) :=
  fun _ => ⟨[⟨_, entry _⟩], rfl, by simpa using h _, rfl⟩

theorem Pursues.outside_journaled {entry : α → OutsideCall} {act : StateM ω α}
    (h : ∀ a, (entry a).stretch? = some k) :
    Carries (Pursues s k) (Action.outside (s.journaledOutside entry act)) :=
  fun _ => ⟨[⟨_, entry _⟩], rfl, by simpa using h _, rfl⟩

theorem Pursues.count (change : Metrics → Metrics) :
    Carries (Pursues s k) (Action.count change) :=
  fun _ => ⟨[], by simp; rfl, by simp, rfl⟩

/-! ## Work that is begun in time -/

/-- If the user has not asked to stop yet, the work heeds the user from then on. -/
def Timely (s : Surroundings ω) (jobs : PoolJob → Prop) (act : Action (Booked ω) α) : Prop :=
  ∀ inv, s.interrupted inv.outside.world = false → Heeds jobs inv (act inv).2

namespace Timely

theorem of_carries {act : Action (Booked ω) α} (h : Carries (Heeds jobs) act) :
    Timely s jobs act :=
  fun inv _ => h inv

theorem of_pursues {act : Action (Booked ω) α} (h : Carries (Pursues s k) act) :
    Timely s jobs act :=
  fun inv hgo => (h inv).heeds hgo

theorem bind {x : Work (Booked ω) α} {f : α → Work (Booked ω) β} (hx : Timely s jobs x.outcome)
    (hf : ∀ a, Carries (Heeds jobs) (f a).outcome) : Timely s jobs (x >>= f).outcome := by
  intro inv hgo
  have hfirst := hx inv hgo
  rcases Work.bind_cases x f inv with ⟨e, mid, hmid, houtcome⟩ | ⟨a, mid, hmid, houtcome⟩
  · rw [hmid] at hfirst
    rwa [houtcome]
  · rw [hmid] at hfirst
    rw [houtcome]
    exact trans_of (Heeds jobs) hfirst (hf a mid)

theorem bind_ofExcept {wrap : ε → OrchestratorError} {x : Except ε α}
    {f : α → Work (Booked ω) β} (h : ∀ a, x = .ok a → Timely s jobs (f a).outcome) :
    Timely s jobs (Work.ofExcept wrap x >>= f).outcome := by
  cases hx : x with
  | error e => exact fun inv _ => refl_of (Heeds jobs) inv
  | ok a => exact h a hx

end Timely

namespace Carries

theorem checkInterrupted_of_interrupted {inv : Invocation (Booked ω)}
    (hstop : s.interrupted inv.outside.world = true) :
    s.booked.checkInterrupted.outcome inv = (.error .interrupted, inv) := by
  rw [Surroundings.outcome_checkInterrupted]
  exact congrArg (·, inv) (if_pos hstop)

/-- Work behind a look at the flag is begun in time or not at all. -/
theorem bind_checkInterrupted {f : Unit → Work (Booked ω) β}
    (hf : Timely s jobs (f ()).outcome) :
    Carries (Heeds jobs) (s.booked.checkInterrupted >>= f).outcome := by
  intro inv
  cases hgo : s.interrupted inv.outside.world with
  | true =>
    rw [Work.bind_of_error (checkInterrupted_of_interrupted hgo)]
    exact refl_of (Heeds jobs) inv
  | false =>
    have hcheck : s.booked.checkInterrupted.outcome inv = (.ok (), inv) := by
      rw [Surroundings.outcome_checkInterrupted]
      exact congrArg (·, inv) (if_neg (Bool.eq_false_iff.1 hgo))
    rw [Work.bind_of_ok hcheck]
    exact hf inv hgo

theorem loadFor_of_interrupted {cluster : String} {operation : Operation}
    {inv : Invocation (Booked ω)} (hstop : s.interrupted inv.outside.world = true)
    (f : ClusterDescriptor → Work (Booked ω) β) :
    ∃ e, (s.booked.loadFor cluster operation >>= f).outcome inv = (.error e, inv) := by
  suffices hload : ∃ e, (s.booked.loadFor cluster operation).outcome inv = (.error e, inv) by
    obtain ⟨e, he⟩ := hload
    exact ⟨e, Work.bind_of_error he⟩
  rw [Surroundings.loadFor]
  rcases Surroundings.load_cases (s := s) cluster inv with ⟨e, he⟩ | ⟨d, -, -, hd⟩
  · exact ⟨e, Work.bind_of_error he⟩
  rw [Work.bind_of_ok hd]
  cases hallowed : d.state.check cluster operation with
  | error e => exact ⟨_, Work.bind_ofExcept_of_error rfl _ _⟩
  | ok u =>
    exact ⟨_, (Work.bind_ofExcept_of_ok rfl _ _).trans
      (Work.bind_of_error (checkInterrupted_of_interrupted hstop))⟩

/-- Work on a descriptor that has been loaded for an operation is begun in time or not at all. -/
theorem bind_loadFor {cluster : String} {operation : Operation}
    {f : ClusterDescriptor → Work (Booked ω) β} (hf : ∀ d, Timely s jobs (f d).outcome) :
    Carries (Heeds jobs) (s.booked.loadFor cluster operation >>= f).outcome := by
  intro inv
  cases hgo : s.interrupted inv.outside.world with
  | true =>
    obtain ⟨e, he⟩ := @loadFor_of_interrupted _ _ s cluster operation inv hgo f
    rw [he]
    exact refl_of (Heeds jobs) inv
  | false =>
    rcases Surroundings.loadFor_cases (s := s) cluster operation inv with
      ⟨e, he⟩ | ⟨d, -, -, hd⟩
    · rw [Work.bind_of_error he]
      exact refl_of (Heeds jobs) inv
    · rw [Work.bind_of_ok hd]
      exact hf d inv hgo

theorem save (d : ClusterDescriptor) : Carries (Heeds jobs) (s.booked.save d).outcome := by
  intro inv
  cases hv : isValidClusterName d.clusterName with
  | false =>
    have hinvalid : s.bookStore.save d inv.outside =
        (.error (.invalidName d.clusterName), inv.outside) := by simp [Surroundings.bookStore, hv]
    have hfailed : (s.booked.save d).outcome inv = (.error (.store _), inv) :=
      Surroundings.access_of_error hinvalid
    rw [hfailed]
    exact refl_of (Heeds jobs) inv
  | true =>
    obtain ⟨late, after, hsave, hafter⟩ := Surroundings.save_outcome (s := s) hv inv
    rw [hsave]
    exact .of_write (c := .saved d) (by rw [hafter]; rfl) rfl

theorem delete (cluster : String) : Carries (Heeds jobs) (Work.ofFallible OrchestratorError.store
    (Action.outside (s.booked.store.delete cluster))).outcome := by
  intro inv
  cases hv : isValidClusterName cluster with
  | false =>
    have hinvalid : s.bookStore.delete cluster inv.outside =
        (.error (.invalidName cluster), inv.outside) := by simp [Surroundings.bookStore, hv]
    have hfailed : (Work.ofFallible OrchestratorError.store
        (Action.outside (s.booked.store.delete cluster))).outcome inv = (.error (.store _), inv) :=
      Surroundings.access_of_error hinvalid
    rw [hfailed]
    exact refl_of (Heeds jobs) inv
  | true =>
    obtain ⟨late, after, hdelete, hafter⟩ := Surroundings.delete_outcome (s := s) hv inv
    rw [hdelete]
    exact .of_write (c := .deleted cluster) (by rw [hafter]; rfl) rfl

/-- No job of a pool is begun once the user has asked to stop. -/
theorem inPool {ρ : Type} {e : Errand ρ α} {environments : List Environment}
    {clouds : Dict (Cloud (Booked ω))} (hclouds : s.booked.cloudsFor environments = .ok clouds)
    {requests : List ρ} {poolJobs : List (Job (Booked ω) α)}
    (hjobs : requests.mapM (e.job clouds) = .ok poolJobs)
    (hkind : ∀ env r answer job, (e.call env r answer).job? = some job → jobs job) (pool : Pool) :
    Carries (Heeds jobs) (s.booked.inPool pool poolJobs) := by
  intro inv
  obtain ⟨attempts, -, hbooks⟩ := Errand.inPool_served hclouds hjobs pool inv
  refine ⟨attempts.flatMap e.entries, by rw [hbooks]; rfl, fun x hx job hjob => ?_,
    .of_forall fun x hx hlate => ?_⟩
  · obtain ⟨a, -, r, -, rfl⟩ := Errand.mem_flatMap_entries hx
    exact hkind _ _ _ job hjob
  · obtain ⟨a, -, r, -, rfl⟩ := Errand.mem_flatMap_entries hx
    cases hlate

end Carries

/-! ## Operations -/

def Request.runs : Request → PoolJob → Bool
  | .allocate _, .launch _ => true
  | .allocate _, .create _ => true
  | .stop, .stop _ => true
  | .start, .start _ => true
  | .clean, .terminate _ => true
  | .clean, .destroy _ => true
  | .all .., .launch _ => true
  | .all .., .create _ => true
  | _, _ => false

namespace Surroundings

variable {cluster : String}

theorem heeds_configure (s : Surroundings ω) (cluster : String) (documents : Documents)
    (implementation : String) (force : Bool) : Carries (Heeds jobs)
      (s.booked.configure cluster documents implementation force).outcome := by
  rw [configure]
  refine Carries.bind_checkInterrupted fun inv hgo => ?_
  rcases checkVacant_cases (s := s) cluster force inv with ⟨e, he⟩ | ⟨hvacant, -⟩
  · rw [Work.bind_of_error he]
    exact refl_of (Heeds jobs) inv
  rw [Work.bind_of_ok hvacant]
  refine Timely.bind_ofExcept (fun plan _ => Timely.bind_ofExcept fun names _ =>
    Timely.bind (Timely.of_pursues (Carries.forM (R := Pursues s .inquiry) fun env => ?_))
      fun _ => ?_) inv hgo
  · exact carries_checkIdle (fun c => Pursues.journaled fun _ => rfl) _
  · exact Carries.work_bind (Carries.ofAction fun inv => refl_of (Heeds jobs) inv)
      fun _ => Carries.work_bind (Carries.save _) fun _ => Carries.pure _

theorem heeds_allocate (s : Surroundings ω) (cluster : String) (force : Bool)
    (hlaunch : ∀ r, jobs (.launch r)) (hcreate : ∀ r, jobs (.create r)) :
    Carries (Heeds jobs) (s.booked.allocate cluster force).outcome := by
  have hacquire : ∀ d, Carries (Heeds jobs) (s.booked.acquire cluster d).outcome := by
    intro d
    refine Carries.bind_ofExcept fun clouds hclouds => ?_
    refine Carries.bind_ofExcept fun provisions _ => ?_
    refine Carries.bind_ofExcept fun launches hlaunches => ?_
    refine Carries.bind_ofExcept fun volumes hvolumes => ?_
    have hlaunched : Carries (Heeds jobs) _ := Carries.inPool (e := Errand.launching) hclouds
      hlaunches (fun env r answer job hjob => by cases hjob; exact hlaunch r) .launches
    have hcreated : Carries (Heeds jobs) _ := Carries.inPool (e := Errand.creating) hclouds hvolumes
      (fun env r answer job hjob => by cases hjob; exact hcreate r) .volumes
    exact Carries.work_bind (Carries.ofAction hlaunched) fun _ =>
      Carries.work_bind (Carries.ofAction hcreated) fun _ => Carries.pure _
  rw [allocate_eq]
  refine Carries.bind_loadFor fun d => Timely.of_carries ?_
  refine Carries.work_bind (hacquire d) fun allocation => ?_
  refine Carries.work_bind (Carries.save _) fun _ => ?_
  rw [report]
  exact Carries.ite (Carries.pure _) (Carries.pure _)

theorem heeds_make (s : Surroundings ω) (cluster : String) :
    Carries (Heeds jobs) (s.booked.make cluster).outcome := by
  rw [make_eq]
  refine Carries.bind_loadFor fun d => Timely.bind (Timely.of_pursues (k := .preparation) ?_)
    fun _ => Carries.pure _
  exact carries_prepare Pursues.count (fun _ _ _ _ => Pursues.outside_journaled fun _ => rfl) d

/-- A step on roles belongs to one stretch if it does so on each of them. -/
theorem pursues_step (step : Role (Booked ω) → Action (Booked ω) (Except RoleError α))
    {tree : TopologyTree} {d : ClusterDescriptor} {roles : List (RoleEntry (Booked ω))}
    (hroles : s.booked.rolesOf d = .ok (tree, roles))
    (hstep : ∀ context r, Carries (Pursues s k) (step (s.bookRole context r))) :
    ∀ entry ∈ roles, Carries (Pursues s k) (step entry.implementation) := by
  intro entry hentry
  obtain ⟨context, r, hr⟩ := implementation_of_rolesOf hroles entry hentry
  rw [hr]
  exact hstep context r

theorem heeds_configureEnvironment {tree : TopologyTree} {d : ClusterDescriptor}
    {roles : List (RoleEntry (Booked ω))} (hroles : s.booked.rolesOf d = .ok (tree, roles))
    (env : Environment) :
    Carries (Heeds jobs) (s.booked.configureEnvironment roles env).outcome := by
  rw [configureEnvironment]
  refine Carries.bind_checkInterrupted (Timely.of_pursues (k := .configuration env.name) ?_)
  refine Carries.runPhase fun entry hentry => ?_
  obtain ⟨hentry, hname⟩ := List.mem_filter.1 hentry
  obtain ⟨context, r, hr, henvironment⟩ := context_of_rolesOf hroles entry hentry
  rw [hr]
  refine Pursues.journaled fun answer => ?_
  rw [OutsideCall.stretch?, RoleStep.stretch, ← henvironment, of_decide_eq_true hname]

theorem heeds_bringUp (s : Surroundings ω) (d : ClusterDescriptor) :
    Carries (Heeds jobs) (s.booked.bringUp d).outcome := by
  refine Carries.bind_ofExcept fun built hbuilt => ?_
  obtain ⟨tree, roles⟩ := built
  refine Carries.work_bind (Carries.forM (heeds_configureEnvironment hbuilt)) fun _ => ?_
  refine Carries.bind_checkInterrupted ?_
  have hinstall := pursues_step (k := .installation) Role.install hbuilt
    fun context r => Pursues.journaled fun _ => rfl
  refine Timely.bind (Timely.of_pursues (Carries.ofAction (Carries.onEveryRole hinstall)))
    fun results => ?_
  refine Carries.work_bind (Carries.ofExcept _ _) fun _ => ?_
  refine Carries.bind_checkInterrupted (Timely.of_pursues (k := .chaining) ?_)
  refine Carries.chainTargets (fun entry hentry postInstall hproxy target => ?_) _ _ _
  obtain ⟨context, r, hr⟩ := implementation_of_rolesOf hbuilt entry hentry
  rw [hr] at hproxy
  obtain ⟨lead, -, rfl⟩ := Option.map_eq_some_iff.1 hproxy
  exact Pursues.journaled fun _ => rfl

theorem heeds_install (s : Surroundings ω) (cluster : String) :
    Carries (Heeds jobs) (s.booked.install cluster).outcome := by
  rw [install_eq]
  exact Carries.bind_loadFor fun d => Timely.of_carries <|
    Carries.work_bind (heeds_bringUp s d) fun _ =>
      Carries.work_bind (Carries.save _) fun _ => Carries.pure _

theorem heeds_bringDown (s : Surroundings ω) (hstop : ∀ m, jobs (.stop m))
    (d : ClusterDescriptor) : Timely s jobs (s.booked.bringDown d).outcome := by
  refine Timely.bind_ofExcept fun built hbuilt => ?_
  obtain ⟨tree, roles⟩ := built
  have hroles := pursues_step (k := .stopping) Role.stop hbuilt
    fun context r => Pursues.journaled fun _ => rfl
  refine Timely.bind (Timely.of_pursues (Carries.runPhase hroles)) fun _ => ?_
  refine Carries.work_bind (Carries.checkInterrupted _) fun _ => ?_
  refine Carries.bind_ofExcept fun clouds hclouds => ?_
  refine Carries.bind_ofExcept fun stops hstops => ?_
  have hpool : Carries (Heeds jobs) _ := Carries.inPool (e := Errand.stopping) hclouds hstops
    (fun env m answer job hjob => by cases hjob; exact hstop m) .stops
  refine Carries.work_bind (Carries.ofAction hpool) fun results => ?_
  exact Carries.ite (Carries.pure _) (Carries.pure _)

theorem heeds_stop (s : Surroundings ω) (cluster : String) (hstop : ∀ m, jobs (.stop m)) :
    Carries (Heeds jobs) (s.booked.stop cluster).outcome := by
  rw [stop_eq]
  exact Carries.bind_loadFor fun d => Timely.bind (heeds_bringDown s hstop d) fun _ =>
    Carries.work_bind (Carries.save _) fun _ => Carries.pure _

theorem heeds_rise (s : Surroundings ω) (d : ClusterDescriptor) (failures : List String) :
    Carries (Heeds jobs) (s.booked.rise d failures).outcome := by
  have hwake : Carries (Heeds jobs) (s.booked.wakeRoles d).outcome := by
    rw [wakeRoles]
    refine Carries.bind_checkInterrupted (Timely.bind_ofExcept fun built hbuilt => ?_)
    obtain ⟨tree, roles⟩ := built
    have hroles := pursues_step (k := .starting) Role.start hbuilt
      fun context r => Pursues.journaled fun _ => rfl
    exact Timely.of_pursues (Carries.runPhase hroles)
  rw [rise]
  split
  · exact Carries.work_bind (Carries.save _) fun _ => Carries.pure _
  · exact Carries.work_bind hwake fun _ =>
      Carries.work_bind (Carries.save _) fun _ => Carries.pure _

theorem heeds_start (s : Surroundings ω) (cluster : String) (hstart : ∀ m, jobs (.start m)) :
    Carries (Heeds jobs) (s.booked.start cluster).outcome := by
  rw [start_eq]
  refine Carries.bind_loadFor fun d => Timely.of_carries ?_
  refine Carries.bind_ofExcept fun clouds hclouds => ?_
  refine Carries.bind_ofExcept fun starts hstarts => ?_
  have hpool : Carries (Heeds jobs) _ := Carries.inPool (e := Errand.starting) hclouds hstarts
    (fun env m answer job hjob => by cases hjob; exact hstart m) .starts
  exact Carries.work_bind (Carries.ofAction hpool) fun _ => heeds_rise s _ _

theorem heeds_raze (s : Surroundings ω) (hterminate : ∀ m, jobs (.terminate m))
    (hdestroy : ∀ v, jobs (.destroy v)) (d : ClusterDescriptor) :
    Carries (Heeds jobs) (s.booked.raze d).outcome := by
  refine Carries.bind_ofExcept fun clouds hclouds => ?_
  refine Carries.bind_ofExcept fun terminations hterminations => ?_
  have hterminated : Carries (Heeds jobs) _ := Carries.inPool (e := Errand.terminating) hclouds
    hterminations (fun env m answer job hjob => by cases hjob; exact hterminate m) .terminations
  refine Carries.work_bind (Carries.ofAction hterminated) fun _ => ?_
  refine Carries.bind_ofExcept fun destructions hdestructions => ?_
  have hdestroyed : Carries (Heeds jobs) _ := Carries.inPool (e := Errand.destroying) hclouds
    hdestructions (fun env v answer job hjob => by cases hjob; exact hdestroy v) .destructions
  exact Carries.work_bind (Carries.ofAction hdestroyed) fun _ => Carries.pure _

theorem heeds_clean (s : Surroundings ω) (cluster : String)
    (hterminate : ∀ m, jobs (.terminate m)) (hdestroy : ∀ v, jobs (.destroy v)) :
    Carries (Heeds jobs) (s.booked.clean cluster).outcome := by
  rw [clean_eq]
  have hroles : ∀ d, Carries (Pursues s .cleaning) (s.booked.cleanInstalled d) :=
    carries_cleanInstalled fun context r => Pursues.journaled fun _ => rfl
  refine Carries.bind_loadFor fun d =>
    Timely.bind (Timely.of_pursues (Carries.ofAction (hroles d))) fun _ => ?_
  rw [tearDown_eq]
  refine Carries.work_bind (heeds_raze s hterminate hdestroy d) fun left => ?_
  rw [settle]
  exact Carries.ite (Carries.delete _) (Carries.work_bind (Carries.save _) fun _ => Carries.pure _)

/-- Wherever in a request the user asks to stop, the user is heeded, and the jobs that are begun are
those of the request. -/
theorem heeds_serve (s : Surroundings ω) (cluster : String) (request : Request) :
    Carries (Heeds fun job => request.runs job = true)
      (s.booked.serve cluster request).outcome := by
  cases request with
  | configure documents implementation force =>
    exact Carries.work_bind (heeds_configure s cluster documents implementation force)
      fun _ => Carries.pure _
  | allocate force =>
    exact Carries.work_bind (heeds_allocate s cluster force (fun _ => rfl) fun _ => rfl)
      fun _ => Carries.pure _
  | make => exact Carries.work_bind (heeds_make s cluster) fun _ => Carries.pure _
  | install => exact Carries.work_bind (heeds_install s cluster) fun _ => Carries.pure _
  | stop => exact Carries.work_bind (heeds_stop s cluster fun _ => rfl) fun _ => Carries.pure _
  | start => exact Carries.work_bind (heeds_start s cluster fun _ => rfl) fun _ => Carries.pure _
  | clean =>
    exact Carries.work_bind (heeds_clean s cluster (fun _ => rfl) fun _ => rfl)
      fun _ => Carries.pure _
  | all documents implementation force =>
    refine Carries.work_bind ?_ fun _ => Carries.pure _
    exact Carries.work_bind (heeds_configure s cluster documents implementation force) fun _ =>
      Carries.work_bind (heeds_allocate s cluster false (fun _ => rfl) fun _ => rfl) fun _ =>
        Carries.work_bind (heeds_make s cluster) fun _ => heeds_install s cluster

/-- A request does nothing if the user has asked to stop before. -/
theorem serve_of_interrupted {inv : Invocation (Booked ω)}
    (hstop : s.interrupted inv.outside.world = true) (request : Request) :
    ∃ e, (s.booked.serve cluster request).outcome inv = (.error e, inv) := by
  have hcheck := Carries.checkInterrupted_of_interrupted hstop
  have hload : ∀ {α β : Type} {operation : Operation} {x : Work (Booked ω) α}
      {f : ClusterDescriptor → Work (Booked ω) α} (g : α → Work (Booked ω) β),
      x = s.booked.loadFor cluster operation >>= f →
      ∃ e, (x >>= g).outcome inv = (.error e, inv) := by
    intro α β operation x f g hx
    obtain ⟨e, he⟩ := Carries.loadFor_of_interrupted hstop f
    rw [hx]
    exact ⟨e, Work.bind_of_error he⟩
  cases request with
  | configure documents implementation force =>
    exact ⟨_, Work.bind_of_error (Work.bind_of_error hcheck)⟩
  | allocate force => exact hload _ rfl
  | make => exact hload _ (make_eq _ _)
  | install => exact hload _ (install_eq _ _)
  | stop => exact hload _ (stop_eq _ _)
  | start => exact hload _ (start_eq _ _)
  | clean => exact hload _ (clean_eq _ _)
  | all documents implementation force =>
    exact ⟨_, Work.bind_of_error (Work.bind_of_error (Work.bind_of_error hcheck))⟩

end Surroundings

end BenchCluster
