import BenchCluster.Orchestrator.Clean
import BenchCluster.Proofs.Journal.Pool

/-! # What a cleanup enters in the books

A cleanup is refused after steps of roles at most, or it attempts to terminate every owned machine
and to destroy every volume, and stores what is left or forgets the cluster.
-/

namespace BenchCluster

variable {ω : Type}

/-- The teardown of a cluster: the attempts at terminating its machines and destroying its volumes,
with the results that the pools have reported. -/
structure Cleaning (d : ClusterDescriptor) where
  terminations : List (Attempt Machine Unit)
  destructions : List (Attempt Volume Unit)
  terminated : List (JobResult Unit)
  destroyed : List (JobResult Unit)
  terminations_served : Errand.terminating.Served d.environments d.ownedMachines terminations
    terminated
  destructions_served : Errand.destroying.Served d.environments d.sharedStorage destructions
    destroyed

namespace Cleaning

variable {d : ClusterDescriptor}

def entries (c : Cleaning d) : List JournalEntry :=
  c.terminations.flatMap Errand.terminating.entries ++
    c.destructions.flatMap Errand.destroying.entries

def left (c : Cleaning d) : ClusterDescriptor :=
  (d.withoutMachines (succeededNames c.terminated)).withoutVolumes (succeededNames c.destroyed)

def answer (c : Cleaning d) (cluster : String) : Except OrchestratorError Unit :=
  if c.left.remaining.isEmpty then .ok () else .error (.cleanupFailed cluster c.left.remaining)

def settle (c : Cleaning d) (cluster : String) (late : Bool) (b : Books) : Books :=
  if c.left.remaining.isEmpty then b.drop late cluster
  else b.put late { c.left with state := .failed }

end Cleaning

namespace Surroundings

variable {s : Surroundings ω} {cluster : String} {d : ClusterDescriptor}
  {inv : Invocation (Booked ω)}

def cleanInstalled (s : Surroundings ω) (d : ClusterDescriptor) : Action ω Unit :=
  if d.mayHaveRoles then s.cleanRoles d else return ()

theorem carries_cleanInstalled {R : Invocation (Booked ω) → Invocation (Booked ω) → Prop}
    [IsPreorder (Invocation (Booked ω)) R]
    (hclean : ∀ context r, Carries R (s.bookRole context r).clean) (d : ClusterDescriptor) :
    Carries R (s.booked.cleanInstalled d) := by
  rw [cleanInstalled, cleanRoles]
  refine Carries.ite ?_ (Carries.pure _)
  cases hroles : s.booked.rolesOf d with
  | error e => exact Carries.pure _
  | ok built =>
    obtain ⟨tree, roles⟩ := built
    refine Carries.bind (Carries.onEveryRole fun entry hentry => ?_) fun _ => Carries.pure _
    obtain ⟨context, r, hr⟩ := implementation_of_rolesOf hroles entry hentry
    rw [hr]
    exact hclean context r

theorem enters_cleanInstalled (s : Surroundings ω) (d : ClusterDescriptor) :
    Enters (fun c => c.isRole = true) (s.booked.cleanInstalled d) := by
  refine carries_cleanInstalled (R := Entered fun c => c.isRole = true) (fun context r => ?_) d
  exact Enters.journaled (P := fun c => c.isRole = true) fun _ => rfl

def settle (s : Surroundings ω) (cluster : String) (left : ClusterDescriptor) : Work ω Unit := do
  if left.remaining.isEmpty then
    Work.ofFallible .store (Action.outside (s.store.delete cluster))
  else
    s.save { left with state := .failed }
    throw (.cleanupFailed cluster left.remaining)

/-- The teardown of machines and volumes, with what becomes of the descriptor. -/
def tearDown (s : Surroundings ω) (cluster : String) (d : ClusterDescriptor) : Work ω Unit := do
  let clouds ← Work.ofExcept id (s.cloudsFor d.environments)
  let terminations ← Work.ofExcept id (d.ownedMachines.mapM (terminateJob clouds))
  let terminated ← Work.ofAction (s.inPool .terminations terminations)
  let destructions ← Work.ofExcept id (d.sharedStorage.mapM (destroyJob clouds))
  let destroyed ← Work.ofAction (s.inPool .destructions destructions)
  let left := d.withoutMachines (succeededNames terminated)
  s.settle cluster (left.withoutVolumes (succeededNames destroyed))

def raze (s : Surroundings ω) (d : ClusterDescriptor) : Work ω ClusterDescriptor := do
  let clouds ← Work.ofExcept id (s.cloudsFor d.environments)
  let terminations ← Work.ofExcept id (d.ownedMachines.mapM (terminateJob clouds))
  let terminated ← Work.ofAction (s.inPool .terminations terminations)
  let destructions ← Work.ofExcept id (d.sharedStorage.mapM (destroyJob clouds))
  let destroyed ← Work.ofAction (s.inPool .destructions destructions)
  let left := d.withoutMachines (succeededNames terminated)
  return left.withoutVolumes (succeededNames destroyed)

theorem tearDown_eq (s : Surroundings ω) (cluster : String) (d : ClusterDescriptor) :
    s.tearDown cluster d = s.raze d >>= s.settle cluster := by
  rw [tearDown, raze]
  simp only [bind_assoc, pure_bind]

theorem clean_eq (s : Surroundings ω) (cluster : String) :
    s.clean cluster = (do
      let d ← s.loadFor cluster .clean
      Work.ofAction (s.cleanInstalled d)
      s.tearDown cluster d) := by
  rw [clean]
  congr 1
  funext d
  rw [cleanInstalled]
  by_cases hroles : d.mayHaveRoles
  · simp only [if_pos hroles]
    rfl
  · simp only [if_neg hroles]
    rfl

theorem settle_outcome {left : ClusterDescriptor} (hname : left.clusterName = cluster)
    (hvalid : isValidClusterName cluster = true) (inv : Invocation (Booked ω)) :
    ∃ (late : Bool) (after : Invocation (Booked ω)),
      (s.booked.settle cluster left).outcome inv =
        (if left.remaining.isEmpty then .ok () else .error (.cleanupFailed cluster left.remaining),
          after) ∧
      after.books = if left.remaining.isEmpty then inv.books.drop late cluster
        else inv.books.put late { left with state := .failed } := by
  rw [settle]
  by_cases hempty : left.remaining.isEmpty
  · obtain ⟨late, after, hdelete, hafter⟩ := delete_outcome (s := s) hvalid inv
    refine ⟨late, after, ?_, ?_⟩
    · rw [if_pos hempty, if_pos hempty, hdelete]
    · rw [if_pos hempty, hafter]
  · obtain ⟨late, after, hsave, hafter⟩ := save_outcome (s := s)
      (d := { left with state := .failed }) (hname ▸ hvalid) inv
    refine ⟨late, after, ?_, ?_⟩
    · rw [if_neg hempty, if_neg hempty, Work.bind_of_ok hsave]
      rfl
    · rw [if_neg hempty, hafter]

theorem raze_outcome {clouds : Dict (Cloud (Booked ω))}
    (hclouds : s.booked.cloudsFor d.environments = .ok clouds)
    (hmachines : ∀ m ∈ d.ownedMachines, ∃ env ∈ d.environments, env.name = m.environment)
    (hvolumes : ∀ v ∈ d.sharedStorage, ∃ env ∈ d.environments, env.name = v.environment)
    (inv : Invocation (Booked ω)) :
    ∃ (c : Cleaning d) (after : Invocation (Booked ω)),
      (s.booked.raze d).outcome inv = (.ok c.left, after) ∧
        after.books = inv.books.enter c.entries := by
  obtain ⟨terminateJobs, hterminate⟩ := Errand.exists_jobs (e := Errand.terminating) hclouds
    d.ownedMachines hmachines
  obtain ⟨destroyJobs, hdestroy⟩ := Errand.exists_jobs (e := Errand.destroying) hclouds
    d.sharedStorage hvolumes
  obtain ⟨terminations, hterminations, hterminateBooks⟩ :=
    Errand.inPool_served hclouds hterminate .terminations inv
  obtain ⟨destructions, hdestructions, hdestroyBooks⟩ := Errand.inPool_served hclouds hdestroy
    .destructions (s.booked.inPool .terminations terminateJobs inv).2
  refine ⟨⟨terminations, destructions, _, _, hterminations, hdestructions⟩,
    (s.booked.inPool .destructions destroyJobs
      (s.booked.inPool .terminations terminateJobs inv).2).2, ?_, ?_⟩
  · rw [raze, Work.bind_ofExcept_of_ok hclouds]
    refine (Work.bind_ofExcept_of_ok hterminate _ _).trans ?_
    rw [Work.bind_ofAction]
    refine (Work.bind_ofExcept_of_ok hdestroy _ _).trans ?_
    rw [Work.bind_ofAction]
    rfl
  · rw [hdestroyBooks, hterminateBooks, Books.enter_enter]
    rfl

theorem raze_of_unlisted_machine {clouds : Dict (Cloud (Booked ω))}
    (hclouds : s.booked.cloudsFor d.environments = .ok clouds)
    (hmachines : ¬ ∀ m ∈ d.ownedMachines, ∃ env ∈ d.environments, env.name = m.environment)
    (inv : Invocation (Booked ω)) :
    ∃ e, (s.booked.raze d).outcome inv = (.error e, inv) := by
  cases hterminate : d.ownedMachines.mapM (Errand.terminating.job clouds) with
  | error e =>
    refine ⟨e, ?_⟩
    rw [raze, Work.bind_ofExcept_of_ok hclouds]
    exact Work.bind_ofExcept_of_error hterminate _ _
  | ok jobs => exact absurd (Errand.listed_of_jobs hclouds hterminate) hmachines

theorem raze_of_unlisted_volume {clouds : Dict (Cloud (Booked ω))}
    (hclouds : s.booked.cloudsFor d.environments = .ok clouds)
    (hmachines : ∀ m ∈ d.ownedMachines, ∃ env ∈ d.environments, env.name = m.environment)
    (hvolumes : ¬ ∀ v ∈ d.sharedStorage, ∃ env ∈ d.environments, env.name = v.environment)
    (inv : Invocation (Booked ω)) :
    ∃ e after terminations, (s.booked.raze d).outcome inv = (.error e, after) ∧
      after.books = inv.books.enter (List.flatMap Errand.terminating.entries terminations) := by
  obtain ⟨jobs, hjobs⟩ := Errand.exists_jobs (e := Errand.terminating) hclouds
    d.ownedMachines hmachines
  obtain ⟨terminations, -, hbooks⟩ := Errand.inPool_served hclouds hjobs .terminations inv
  cases hdestroy : d.sharedStorage.mapM (Errand.destroying.job clouds) with
  | error e =>
    refine ⟨e, _, terminations, ?_, hbooks⟩
    rw [raze, Work.bind_ofExcept_of_ok hclouds]
    refine (Work.bind_ofExcept_of_ok hjobs _ _).trans ?_
    rw [Work.bind_ofAction]
    exact Work.bind_ofExcept_of_error hdestroy _ _
  | ok destroyJobs => exact absurd (Errand.listed_of_jobs hclouds hdestroy) hvolumes

/-- With clients for all machines and volumes the teardown goes through. -/
theorem tearDown_outcome (hname : d.clusterName = cluster)
    (hvalid : isValidClusterName cluster = true) {clouds : Dict (Cloud (Booked ω))}
    (hclouds : s.booked.cloudsFor d.environments = .ok clouds)
    (hmachines : ∀ m ∈ d.ownedMachines, ∃ env ∈ d.environments, env.name = m.environment)
    (hvolumes : ∀ v ∈ d.sharedStorage, ∃ env ∈ d.environments, env.name = v.environment)
    (inv : Invocation (Booked ω)) :
    ∃ (c : Cleaning d) (late : Bool) (after : Invocation (Booked ω)),
      (s.booked.tearDown cluster d).outcome inv = (c.answer cluster, after) ∧
        after.books = c.settle cluster late (inv.books.enter c.entries) := by
  obtain ⟨c, mid, hraze, hmid⟩ := raze_outcome (s := s) hclouds hmachines hvolumes inv
  have hleft : c.left.clusterName = cluster := hname
  obtain ⟨late, after, hsettle, hafter⟩ := settle_outcome (s := s) hleft hvalid mid
  refine ⟨c, late, after, ?_, ?_⟩
  · rw [tearDown_eq, Work.bind_of_ok hraze]
    exact hsettle
  · rw [hafter, hmid]
    rfl

theorem tearDown_of_unlisted_machine {clouds : Dict (Cloud (Booked ω))}
    (hclouds : s.booked.cloudsFor d.environments = .ok clouds)
    (hmachines : ¬ ∀ m ∈ d.ownedMachines, ∃ env ∈ d.environments, env.name = m.environment)
    (inv : Invocation (Booked ω)) :
    ∃ e, (s.booked.tearDown cluster d).outcome inv = (.error e, inv) := by
  obtain ⟨e, hraze⟩ := raze_of_unlisted_machine (s := s) hclouds hmachines inv
  rw [tearDown_eq]
  exact ⟨e, Work.bind_of_error hraze⟩

theorem tearDown_of_unlisted_volume {clouds : Dict (Cloud (Booked ω))}
    (hclouds : s.booked.cloudsFor d.environments = .ok clouds)
    (hmachines : ∀ m ∈ d.ownedMachines, ∃ env ∈ d.environments, env.name = m.environment)
    (hvolumes : ¬ ∀ v ∈ d.sharedStorage, ∃ env ∈ d.environments, env.name = v.environment)
    (inv : Invocation (Booked ω)) :
    ∃ e after terminations, (s.booked.tearDown cluster d).outcome inv = (.error e, after) ∧
      after.books = inv.books.enter (List.flatMap Errand.terminating.entries terminations) := by
  obtain ⟨e, after, terminations, hraze, hafter⟩ :=
    raze_of_unlisted_volume (s := s) hclouds hmachines hvolumes inv
  rw [tearDown_eq]
  exact ⟨e, after, terminations, Work.bind_of_error hraze, hafter⟩

/-- Once the clients are known, and those of all machines and volumes are among them, a cleanup is
not refused any more. -/
theorem clean_outcome (hload : (s.booked.loadFor cluster .clean).outcome inv = (.ok d, inv))
    (hname : d.clusterName = cluster) (hvalid : isValidClusterName cluster = true)
    {clouds : Dict (Cloud (Booked ω))} (hclouds : s.booked.cloudsFor d.environments = .ok clouds)
    (hmachines : ∀ m ∈ d.ownedMachines, ∃ env ∈ d.environments, env.name = m.environment)
    (hvolumes : ∀ v ∈ d.sharedStorage, ∃ env ∈ d.environments, env.name = v.environment) :
    ∃ (steps : List JournalEntry) (c : Cleaning d) (late : Bool) (after : Invocation (Booked ω)),
      (∀ e ∈ steps, e.call.isRole = true) ∧
        (s.booked.clean cluster).outcome inv = (c.answer cluster, after) ∧
        after.books = c.settle cluster late (inv.books.enter (steps ++ c.entries)) := by
  obtain ⟨steps, hsteps, hstepBooks⟩ := enters_cleanInstalled s d inv
  obtain ⟨c, late, after, houtcome, hafter⟩ := tearDown_outcome hname hvalid hclouds hmachines
    hvolumes (s.booked.cleanInstalled d inv).2
  refine ⟨steps, c, late, after, hsteps, ?_, ?_⟩
  · rw [clean_eq, Work.bind_of_ok hload, Work.bind_ofAction]
    exact houtcome
  · rw [hafter, hstepBooks, Books.enter_enter]

/-- A cleanup ends after steps of roles, or it goes through with its attempts. Only if a volume is
in an environment that is not listed does it end after the terminations. -/
theorem clean_cases (hnamed : inv.books.Named) :
    Failed (fun c => c.isRole = true) inv ((s.booked.clean cluster).outcome inv) ∨
      ∃ d steps, inv.books.find? cluster = some d ∧ (∀ x ∈ steps, x.call.isRole = true) ∧
        ((∃ v ∈ d.sharedStorage, ∀ env ∈ d.environments, env.name ≠ v.environment) ∧
            (∃ e after terminations, (s.booked.clean cluster).outcome inv = (.error e, after) ∧
              after.books = inv.books.enter
                (steps ++ List.flatMap Errand.terminating.entries terminations)) ∨
          ∃ (c : Cleaning d) (late : Bool) (after : Invocation (Booked ω)),
            (s.booked.clean cluster).outcome inv = (c.answer cluster, after) ∧
            after.books = c.settle cluster late (inv.books.enter (steps ++ c.entries))) := by
  rcases loadFor_cases (s := s) cluster .clean inv with ⟨e, he⟩ | ⟨d, hd, -, hload⟩
  · exact .inl (.at_once (Work.bind_of_error he))
  obtain ⟨hname, hvalid⟩ := hnamed cluster d hd
  obtain ⟨steps, hsteps, hstepBooks⟩ := enters_cleanInstalled s d inv
  have hrest : (s.booked.clean cluster).outcome inv =
      (s.booked.tearDown cluster d).outcome (s.booked.cleanInstalled d inv).2 := by
    rw [clean_eq, Work.bind_of_ok hload, Work.bind_ofAction]
  cases hclouds : s.booked.cloudsFor d.environments with
  | error e =>
    refine .inl ⟨e, _, steps, hsteps, ?_, hstepBooks⟩
    rw [hrest, tearDown]
    exact Work.bind_ofExcept_of_error hclouds _ _
  | ok clouds =>
    by_cases hmachines : ∀ m ∈ d.ownedMachines, ∃ env ∈ d.environments, env.name = m.environment
    · right
      by_cases hvolumes : ∀ v ∈ d.sharedStorage, ∃ env ∈ d.environments, env.name = v.environment
      · obtain ⟨steps, c, late, after, hsteps, houtcome, hafter⟩ :=
          clean_outcome hload hname hvalid hclouds hmachines hvolumes
        exact ⟨d, steps, hd, hsteps, .inr ⟨c, late, after, houtcome, hafter⟩⟩
      · obtain ⟨e, after, terminations, houtcome, hafter⟩ :=
          tearDown_of_unlisted_volume (s := s) hclouds hmachines hvolumes _
        refine ⟨d, steps, hd, hsteps, .inl ⟨by simpa using hvolumes, e, after, terminations,
          hrest.trans houtcome, ?_⟩⟩
        rw [hafter, hstepBooks, Books.enter_enter]
    · obtain ⟨e, houtcome⟩ := tearDown_of_unlisted_machine (s := s) hclouds hmachines _
      exact .inl ⟨e, _, steps, hsteps, hrest.trans houtcome, hstepBooks⟩

end Surroundings

end BenchCluster
