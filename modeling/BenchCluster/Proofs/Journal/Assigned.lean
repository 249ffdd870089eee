import BenchCluster.Proofs.Journal.Run
import BenchCluster.Proofs.Journal.Unbegun

/-! # Jobs that operations begin

Whatever fails on the way, the store included, an operation asks clouds for nothing but the jobs
that its request means for the stored descriptor.
-/

namespace BenchCluster

variable {ω ρ α β : Type}

/-- A job of a request for the descriptor that is stored. -/
def Books.Means (b : Books) (cluster : String) (request : Request) (job : PoolJob) : Prop :=
  ∃ d, b.find? cluster = some d ∧ job ∈ request.jobs cluster d

/-- The calls that are entered are for some jobs only. -/
def Begins (jobs : PoolJob → Prop) (inv after : Invocation (Booked ω)) : Prop :=
  ∃ calls, after.books.journal = inv.books.journal ++ calls ∧
    ∀ x ∈ calls, ∀ job, x.call.job? = some job → jobs job

variable {s : Surroundings ω} {jobs : PoolJob → Prop} {cluster : String}

instance : IsPreorder (Invocation (Booked ω)) (Begins jobs) where
  refl inv := ⟨[], by simp, by simp⟩
  trans inv mid after := by
    rintro ⟨first, hmid, hfirst⟩ ⟨second, hafter, hsecond⟩
    refine ⟨first ++ second, by rw [hafter, hmid, List.append_assoc], fun x hx => ?_⟩
    rcases List.mem_append.1 hx with hx | hx
    · exact hfirst x hx
    · exact hsecond x hx

namespace Begins

theorem of_books {inv after : Invocation (Booked ω)} (h : after.books = inv.books) :
    Begins jobs inv after :=
  ⟨[], by rw [h, List.append_nil], by simp⟩

theorem of_enters {act : Action (Booked ω) α} (h : Enters (fun c => c.job? = none) act) :
    Carries (Begins jobs) act := by
  intro inv
  obtain ⟨entries, hentries, hbooks⟩ := h inv
  refine ⟨entries, by rw [hbooks]; rfl, fun x hx job hjob => ?_⟩
  rw [hentries x hx] at hjob
  cases hjob

theorem of_isRole {act : Action (Booked ω) α} (h : Enters (fun c => c.isRole = true) act) :
    Carries (Begins jobs) act := by
  refine of_enters (h.imp fun c hc => ?_)
  cases c <;> first | rfl | cases hc

theorem save (s : Surroundings ω) (d : ClusterDescriptor) :
    Carries (Begins jobs) (s.frail.save d).outcome := by
  intro inv
  rcases s.save_frail_cases d inv with ⟨e, after, hsave, hafter⟩ | ⟨late, after, hsave, -, hafter⟩
  · rw [hsave]
    exact of_books hafter
  · rw [hsave]
    refine ⟨[⟨late, .saved d⟩], by rw [hafter]; rfl, fun x hx job hjob => ?_⟩
    rw [List.mem_singleton.1 hx] at hjob
    cases hjob

theorem delete (s : Surroundings ω) (cluster : String) : Carries (Begins jobs)
    (Work.ofFallible OrchestratorError.store
      (Action.outside (s.frail.store.delete cluster))).outcome := by
  intro inv
  rcases s.delete_frail_cases cluster inv with
    ⟨e, after, hdelete, hafter⟩ | ⟨late, after, hdelete, hafter⟩
  · rw [hdelete]
    exact of_books hafter
  · rw [hdelete]
    refine ⟨[⟨late, .deleted cluster⟩], by rw [hafter]; rfl, fun x hx job hjob => ?_⟩
    rw [List.mem_singleton.1 hx] at hjob
    cases hjob

theorem inPool {e : Errand ρ α} {environments : List Environment}
    {clouds : Dict (Cloud (Booked ω))} (hclouds : s.booked.cloudsFor environments = .ok clouds)
    {requests : List ρ} {poolJobs : List (Job (Booked ω) α)}
    (hjobs : requests.mapM (e.job clouds) = .ok poolJobs)
    (hmeant : ∀ r ∈ requests, ∀ env answer job, (e.call env r answer).job? = some job → jobs job)
    (pool : Pool) : Carries (Begins jobs) (s.booked.inPool pool poolJobs) := by
  intro inv
  obtain ⟨attempts, hserved, hbooks⟩ := Errand.inPool_served hclouds hjobs pool inv
  refine ⟨attempts.flatMap e.entries, by rw [hbooks]; rfl, fun x hx job hjob => ?_⟩
  obtain ⟨a, ha, r, -, rfl⟩ := Errand.mem_flatMap_entries hx
  exact hmeant a.request (hserved.request_mem ha) _ _ job hjob

theorem of_loadFor {operation : Operation} {request : Request}
    {x : ClusterDescriptor → Work (Booked ω) α}
    (h : ∀ d, Carries (Begins fun job => job ∈ request.jobs cluster d) (x d).outcome)
    (inv : Invocation (Booked ω)) : Begins (inv.books.Means cluster request) inv
      ((s.frail.loadFor cluster operation >>= x).outcome inv).2 := by
  rcases s.loadFor_frail_cases cluster operation inv with
    ⟨e, after, hload, hafter, -⟩ | ⟨d, mid, hloaded, hload, hmid⟩
  · rw [Work.bind_of_error hload]
    exact of_books hafter
  · rw [Work.bind_of_ok hload]
    obtain ⟨calls, hjournal, hcalls⟩ := h d mid
    exact ⟨calls, by rw [hjournal, hmid],
      fun y hy job hjob => ⟨d, hloaded.stored, hcalls y hy job hjob⟩⟩

end Begins

namespace Surroundings

open Begins

/-! ## The operations -/

theorem begins_configure (s : Surroundings ω) (cluster : String) (documents : Documents)
    (implementation : String) (force : Bool) : Carries (Begins jobs)
      (s.frail.configure cluster documents implementation force).outcome := by
  rw [configure]
  refine Carries.work_bind (Carries.checkInterrupted _) fun _ => ?_
  refine Carries.work_bind (fun inv => ?_) fun _ => ?_
  · rcases Effect.checkVacant_frail_cases s cluster force documents implementation inv with
      ⟨e, after, hvacant, hafter, -⟩ | ⟨after, hvacant, hafter, -⟩
    · rw [hvacant]
      exact of_books hafter
    · rw [hvacant]
      exact of_books hafter
  refine Carries.bind_ofExcept fun plan _ => Carries.bind_ofExcept fun names _ => ?_
  refine Carries.work_bind (Carries.forM fun env => ?_) fun _ => ?_
  · exact carries_checkIdle (s := s) (fun c => of_enters (.journaled fun _ => rfl)) _
  · refine Carries.work_bind (Carries.ofAction fun inv => of_books rfl) fun now => ?_
    exact Carries.work_bind (Begins.save s _) fun _ => Carries.pure _

theorem begins_acquire (s : Surroundings ω) (cluster : String) (d : ClusterDescriptor)
    (force : Bool) : Carries (Begins fun job => job ∈ (Request.allocate force).jobs cluster d)
      (s.frail.acquire cluster d).outcome := by
  intro inv
  rw [acquire_frail]
  rcases acquire_cases s cluster d inv with ⟨e, he⟩ | ⟨a, after, hacquire, hafter⟩
  · rw [he]
    exact refl_of (Begins _) inv
  · rw [hacquire]
    refine ⟨a.entries, by rw [hafter]; rfl, fun x hx job hjob => ?_⟩
    change job ∈ (d.wantedLaunches cluster).map .launch ++ (d.wantedVolumes cluster).map .create
    rw [List.mem_append]
    rcases List.mem_append.1 hx with hx | hx
    · obtain ⟨y, hy, r, -, rfl⟩ := Errand.mem_flatMap_entries hx
      cases hjob
      exact .inl (List.mem_map_of_mem (a.mem_requests_iff.2 (a.launches_served.request_mem hy)))
    · obtain ⟨y, hy, r, -, rfl⟩ := Errand.mem_flatMap_entries hx
      cases hjob
      exact .inr (List.mem_map_of_mem
        (a.mem_wantedVolumes_iff.2 (a.volumes_served.request_mem hy)))

theorem begins_haltMachines (s : Surroundings ω) (cluster : String) (d : ClusterDescriptor) :
    Carries (Begins fun job => job ∈ Request.stop.jobs cluster d)
      (s.frail.haltMachines d).outcome := by
  refine Carries.bind_ofExcept fun clouds hclouds => ?_
  refine Carries.bind_ofExcept fun stops hstops => ?_
  refine Carries.work_bind (Carries.ofAction (Begins.inPool (e := Errand.stopping) hclouds hstops
    (fun m hm env answer job hjob => ?_) .stops)) fun results => ?_
  · cases hjob
    exact List.mem_map_of_mem hm
  · exact Carries.ite (Carries.pure _) (Carries.pure _)

theorem begins_rise (s : Surroundings ω) (d : ClusterDescriptor) (failures : List String) :
    Carries (Begins jobs) (s.frail.rise d failures).outcome := by
  rw [rise]
  split
  · exact Carries.work_bind (Begins.save s _) fun _ => Carries.pure _
  · exact Carries.work_bind (of_isRole (s.enters_wakeRoles d)) fun _ =>
      Carries.work_bind (Begins.save s _) fun _ => Carries.pure _

theorem begins_raze (s : Surroundings ω) (cluster : String) (d : ClusterDescriptor) :
    Carries (Begins fun job => job ∈ Request.clean.jobs cluster d) (s.frail.raze d).outcome := by
  refine Carries.bind_ofExcept fun clouds hclouds => ?_
  refine Carries.bind_ofExcept fun terminations hterminations => ?_
  refine Carries.work_bind (Carries.ofAction (Begins.inPool (e := Errand.terminating) hclouds
    hterminations (fun m hm env answer job hjob => ?_) .terminations)) fun _ => ?_
  · cases hjob
    exact List.mem_append_left _ (List.mem_map_of_mem hm)
  refine Carries.bind_ofExcept fun destructions hdestructions => ?_
  refine Carries.work_bind (Carries.ofAction (Begins.inPool (e := Errand.destroying) hclouds
    hdestructions (fun v hv env answer job hjob => ?_) .destructions)) fun _ => Carries.pure _
  cases hjob
  exact List.mem_append_right _ (List.mem_map_of_mem hv)

theorem begins_allocate (s : Surroundings ω) (cluster : String) (force : Bool)
    (inv : Invocation (Booked ω)) : Begins (inv.books.Means cluster (.allocate force)) inv
      ((s.frail.allocate cluster force).outcome inv).2 := by
  rw [allocate_eq]
  refine of_loadFor (fun d => ?_) inv
  refine Carries.work_bind (begins_acquire s cluster d force) fun allocation => ?_
  refine Carries.work_bind (Begins.save s _) fun _ => ?_
  rw [report]
  exact Carries.ite (Carries.pure _) (Carries.pure _)

theorem begins_make (s : Surroundings ω) (cluster : String) (inv : Invocation (Booked ω)) :
    Begins (inv.books.Means cluster .make) inv ((s.frail.make cluster).outcome inv).2 := by
  rw [make_eq]
  refine of_loadFor (fun d => Carries.work_bind ?_ fun _ => Carries.pure _) inv
  exact carries_prepare (s := s) (fun change => of_enters (.count change))
    (fun _ _ _ _ => of_enters (.outside_journaled fun _ => rfl)) d

theorem begins_install (s : Surroundings ω) (cluster : String) (inv : Invocation (Booked ω)) :
    Begins (inv.books.Means cluster .install) inv ((s.frail.install cluster).outcome inv).2 := by
  rw [install_eq]
  refine of_loadFor (fun d => Carries.work_bind (of_isRole (s.enters_bringUp d)) fun _ => ?_) inv
  exact Carries.work_bind (Begins.save s _) fun _ => Carries.pure _

theorem begins_stop (s : Surroundings ω) (cluster : String) (inv : Invocation (Booked ω)) :
    Begins (inv.books.Means cluster .stop) inv ((s.frail.stop cluster).outcome inv).2 := by
  rw [stop_eq]
  refine of_loadFor (fun d => Carries.work_bind ?_ fun _ => ?_) inv
  · rw [bringDown_eq]
    exact Carries.work_bind (of_isRole (s.enters_restRoles d)) fun _ =>
      begins_haltMachines s cluster d
  · exact Carries.work_bind (Begins.save s _) fun _ => Carries.pure _

theorem begins_start (s : Surroundings ω) (cluster : String) (inv : Invocation (Booked ω)) :
    Begins (inv.books.Means cluster .start) inv ((s.frail.start cluster).outcome inv).2 := by
  rw [start_eq]
  refine of_loadFor (fun d => ?_) inv
  refine Carries.bind_ofExcept fun clouds hclouds => ?_
  refine Carries.bind_ofExcept fun starts hstarts => ?_
  refine Carries.work_bind (Carries.ofAction (Begins.inPool (e := Errand.starting) hclouds hstarts
    (fun m hm env answer job hjob => ?_) .starts)) fun _ => begins_rise s _ _
  cases hjob
  exact List.mem_map_of_mem hm

theorem begins_clean (s : Surroundings ω) (cluster : String) (inv : Invocation (Booked ω)) :
    Begins (inv.books.Means cluster .clean) inv ((s.frail.clean cluster).outcome inv).2 := by
  rw [clean_eq]
  refine of_loadFor (fun d => ?_) inv
  refine Carries.work_bind (Carries.ofAction (of_isRole (s.enters_cleanInstalled d))) fun _ => ?_
  rw [tearDown_eq]
  refine Carries.work_bind (begins_raze s cluster d) fun left => ?_
  rw [settle]
  exact Carries.ite (Begins.delete s cluster)
    (Carries.work_bind (Begins.save s _) fun _ => Carries.pure _)

/-- A request that is one operation begins jobs that it means for the stored descriptor. -/
theorem begins_serve (s : Surroundings ω) (cluster : String) {request : Request}
    (hsingle : request.stages = [request]) (inv : Invocation (Booked ω)) :
    Begins (inv.books.Means cluster request) inv
      ((s.frail.serve cluster request).outcome inv).2 := by
  cases request with
  | configure documents implementation force =>
    rw [serve, Work.outcome_some]
    exact begins_configure s cluster documents implementation force inv
  | allocate force =>
    rw [serve, Work.outcome_some]
    exact begins_allocate s cluster force inv
  | make =>
    rw [serve, Work.outcome_some]
    exact begins_make s cluster inv
  | install =>
    rw [serve, Work.outcome_some]
    exact begins_install s cluster inv
  | stop =>
    rw [serve, Work.outcome_some]
    exact begins_stop s cluster inv
  | start =>
    rw [serve, Work.outcome_some]
    exact begins_start s cluster inv
  | clean =>
    rw [serve, Work.outcome_map fun _ => none]
    exact begins_clean s cluster inv
  | all documents implementation force => cases hsingle

end Surroundings

/-- The jobs that an invocation begins are meant for the descriptor that was stored. -/
theorem Turn.jobs_of_venture (t : Turn) (hsingle : t.request.stages = [t.request]) (b : Books) :
    ∃ calls, (t.venture b).2.journal = b.journal ++ calls ∧
      ∀ x ∈ calls, ∀ job, x.call.job? = some job → b.Means t.cluster t.request job :=
  t.surroundings.begins_serve t.cluster hsingle (t.start.withBooks b)

end BenchCluster
