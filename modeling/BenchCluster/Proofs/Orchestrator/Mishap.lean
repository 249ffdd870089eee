import BenchCluster.Proofs.Fallible
import BenchCluster.Proofs.Journal.Allocate
import BenchCluster.Proofs.Journal.Clean
import BenchCluster.Proofs.Journal.Install
import BenchCluster.Proofs.Journal.Power
import BenchCluster.Proofs.Orchestrator.Failing
import BenchCluster.Orchestrator.Configure

/-! # Why operations fail

An operation is refused before it has begun, or has come to a part of its goal only, or some step of
it has gone wrong. The steps themselves fail in the last way only.
-/

namespace BenchCluster

variable {ω α β ε : Type}

namespace OrchestratorError

/-- Whether an error says that an operation is not allowed as things are. -/
def isRefusal : OrchestratorError → Bool
  | .transition _ => true
  | .alreadyConfigured _ => true
  | .holdsResources .. => true
  | _ => false

/-- Whether an error says that an allocation or a cleanup has stored what it has come to. -/
def isShortfall : OrchestratorError → Bool
  | .allocationFailed .. => true
  | .cleanupFailed .. => true
  | _ => false

/-- Whether an error says that a step of an operation has gone wrong. -/
def isMishap (e : OrchestratorError) : Bool := !e.isRefusal && !e.isShortfall

theorem isShortfall_of_isRefusal {e : OrchestratorError} (h : e.isRefusal = true) :
    e.isShortfall = false := by
  cases e <;> simp_all [isRefusal, isShortfall]

theorem isMishap_iff {e : OrchestratorError} :
    e.isMishap = true ↔ e.isRefusal = false ∧ e.isShortfall = false := by
  simp [isMishap]

end OrchestratorError

/-! ## Results -/

def FailsByMishap (x : Except OrchestratorError α) : Prop :=
  ∀ e, x = .error e → e.isMishap = true

namespace FailsByMishap

theorem ok (a : α) : FailsByMishap (.ok a) := FailsOnly.ok a

theorem error {e : OrchestratorError} (h : e.isMishap = true) :
    FailsByMishap (.error e : Except OrchestratorError α) :=
  FailsOnly.error (P := fun e => e.isMishap = true) h

theorem mapError {wrap : ε → OrchestratorError} (h : ∀ e, (wrap e).isMishap = true)
    (x : Except ε α) : FailsByMishap (x.mapError wrap) :=
  FailsOnly.mapError (P := fun e => e.isMishap = true) h x

theorem bind {x : Except OrchestratorError α} {f : α → Except OrchestratorError β}
    (hx : FailsByMishap x) (hf : ∀ a, FailsByMishap (f a)) : FailsByMishap (x >>= f) :=
  FailsOnly.bind hx hf

theorem mapM {f : α → Except OrchestratorError β} (hf : ∀ a, FailsByMishap (f a)) (l : List α) :
    FailsByMishap (l.mapM f) :=
  FailsOnly.mapM hf l

end FailsByMishap

theorem mishap_hostsOf (defaultPort : UInt16) (machines : List Machine) :
    FailsByMishap (hostsOf defaultPort machines) :=
  FailsOnly.hostsOf (P := fun e => e.isMishap = true) (fun _ => rfl) defaultPort machines

namespace Surroundings

theorem mishap_buildCloud (s : Surroundings ω) (configs : Dict CloudConfig) (env : Environment) :
    FailsByMishap (s.buildCloud configs env) := by
  rw [buildCloud]
  cases configs.find? env.cloud with
  | none => exact .error rfl
  | some config => exact .mapError (fun _ => rfl) _

theorem mishap_cloudsFor (s : Surroundings ω) (environments : List Environment) :
    FailsByMishap (s.cloudsFor environments) :=
  .bind (.mapM (fun env => .bind (s.mishap_buildCloud _ env) fun _ => .ok _) _) fun _ => .ok _

theorem mishap_rolesOf (s : Surroundings ω) (d : ClusterDescriptor) :
    FailsByMishap (s.rolesOf d) := by
  have hrole : ∀ role instances, FailsByMishap (s.buildRole d role instances) := by
    intro role instances
    rw [buildRole]
    cases d.component? role with
    | none => exact .error rfl
    | some component =>
      exact .bind (mishap_hostsOf _ _) fun _ => .bind (.mapError (fun _ => rfl) _) fun _ => .ok _
  refine .bind (.mapError (fun _ => rfl) _) fun tree =>
    .bind (.mapM (fun group => ?_) _) fun _ => .ok _
  exact hrole group.1 group.2

end Surroundings

theorem mishap_checkPhase (phase : Phase) (results : List (String × Except RoleError α)) :
    FailsByMishap (checkPhase phase results) :=
  FailsOnly.checkPhase (P := fun e => e.isMishap = true) (fun _ _ => rfl) phase results

theorem mishap_job {ρ : Type} (e : Errand ρ α) (clouds : Dict (Cloud ω)) (r : ρ) :
    FailsByMishap (e.job clouds r) :=
  FailsOnly.job (P := fun e => e.isMishap = true) (fun _ => rfl) e clouds r

theorem mishap_provisions (d : ClusterDescriptor) (cluster : String) :
    FailsByMishap (d.provisions cluster) := by
  refine .mapM (fun i => ?_) _
  change FailsByMishap (d.provision cluster i.1 i.2)
  rw [ClusterDescriptor.provision]
  split
  · exact .error rfl
  · dsimp only
    split
    · exact .ok _
    · split
      · exact .ok _
      · exact .ok _

/-! ## Work -/

def Work.OnlyMishaps (x : Work ω α) : Prop := ∀ inv, FailsByMishap (x.outcome inv).1

namespace Work.OnlyMishaps

theorem pure (a : α) : OnlyMishaps (Pure.pure a : Work ω α) := FailsOnly.pure a

theorem throw {e : OrchestratorError} (h : e.isMishap = true) :
    OnlyMishaps (throw e : Work ω α) :=
  FailsOnly.throw (P := fun e => e.isMishap = true) h

theorem bind {x : Work ω α} {f : α → Work ω β} (hx : x.OnlyMishaps)
    (hf : ∀ a, (f a).OnlyMishaps) : (x >>= f).OnlyMishaps :=
  FailsOnly.bind hx hf

theorem ite {c : Prop} [Decidable c] {x y : Work ω α} (hx : x.OnlyMishaps) (hy : y.OnlyMishaps) :
    (if c then x else y).OnlyMishaps :=
  FailsOnly.ite hx hy

theorem ofAction (act : Action ω α) : (Work.ofAction act).OnlyMishaps := FailsOnly.ofAction act

theorem ofExcept {x : Except OrchestratorError α} (h : FailsByMishap x) :
    (Work.ofExcept (ω := ω) id x).OnlyMishaps :=
  FailsOnly.ofExcept h

theorem wrapped {wrap : ε → OrchestratorError} (h : ∀ e, (wrap e).isMishap = true)
    (x : Except ε α) : (Work.ofExcept (ω := ω) wrap x).OnlyMishaps :=
  FailsOnly.wrapped (P := fun e => e.isMishap = true) h x

theorem ofFallible {wrap : ε → OrchestratorError} (h : ∀ e, (wrap e).isMishap = true)
    (act : Action ω (Except ε α)) : (Work.ofFallible wrap act).OnlyMishaps :=
  FailsOnly.ofFallible (P := fun e => e.isMishap = true) h act

theorem forM {f : α → Work ω PUnit} (h : ∀ a, (f a).OnlyMishaps) (l : List α) :
    (l.forM f).OnlyMishaps :=
  FailsOnly.forM h l

theorem checkInterrupted (s : Surroundings ω) : s.checkInterrupted.OnlyMishaps :=
  FailsOnly.checkInterrupted (P := fun e => e.isMishap = true) rfl s

theorem runPhase (phase : Phase) (step : Role ω → Action ω (Except RoleError Unit))
    (roles : List (RoleEntry ω)) : (runPhase phase step roles).OnlyMishaps :=
  FailsOnly.runPhase (P := fun e => e.isMishap = true) (fun _ _ => rfl) phase step roles

theorem checkIdle (s : Surroundings ω) (cluster : String) (configs : Dict CloudConfig)
    (env : Environment) : (s.checkIdle cluster configs env).OnlyMishaps :=
  bind (ofExcept (s.mishap_buildCloud configs env)) fun _ =>
    bind (ofFallible (fun _ => rfl) _) fun _ => ite (throw rfl) (pure _)

theorem acquire (s : Surroundings ω) (cluster : String) (d : ClusterDescriptor) :
    (s.acquire cluster d).OnlyMishaps :=
  bind (ofExcept (s.mishap_cloudsFor _)) fun clouds =>
    bind (ofExcept (mishap_provisions d cluster)) fun _ =>
    bind (ofExcept (.mapM (mishap_job Errand.launching clouds) _)) fun _ =>
    bind (ofExcept (.mapM (mishap_job Errand.creating clouds) _)) fun _ =>
    bind (ofAction _) fun _ => bind (ofAction _) fun _ => pure _

theorem prepare (s : Surroundings ω) (d : ClusterDescriptor) : (s.prepare d).OnlyMishaps :=
  bind (ofExcept (mishap_hostsOf _ _)) fun _ => ite (pure _)
    (bind (ofAction _) fun _ => bind (wrapped (fun _ => rfl) _) fun _ => pure _)

theorem chainTargets (tree : TopologyTree) (roles : List (RoleEntry ω))
    (targets : List (String × Option ConnectionTarget)) (candidate : Option ConnectionTarget) :
    (chainTargets tree roles targets candidate).OnlyMishaps := by
  induction targets generalizing candidate with
  | nil => exact pure _
  | cons t rest ih =>
    obtain ⟨role, none | target⟩ := t
    · exact ih candidate
    · rw [BenchCluster.chainTargets]
      cases proxyAbove? tree roles role with
      | none => exact ih (some target)
      | some postInstall =>
        exact bind (ofFallible (fun _ => rfl) _) fun chained => ih (some chained)

theorem bringUp (s : Surroundings ω) (d : ClusterDescriptor) : (s.bringUp d).OnlyMishaps :=
  bind (ofExcept (s.mishap_rolesOf d)) fun built =>
    bind (forM (fun _ => bind (checkInterrupted s) fun _ => runPhase _ _ _) _) fun _ =>
    bind (checkInterrupted s) fun _ => bind (ofAction _) fun _ =>
    bind (ofExcept (mishap_checkPhase _ _)) fun _ =>
    bind (checkInterrupted s) fun _ => chainTargets built.1 built.2 _ _

theorem bringDown (s : Surroundings ω) (d : ClusterDescriptor) : (s.bringDown d).OnlyMishaps :=
  bind (ofExcept (s.mishap_rolesOf d)) fun _ => bind (runPhase _ _ _) fun _ =>
    bind (checkInterrupted s) fun _ => bind (ofExcept (s.mishap_cloudsFor _)) fun clouds =>
    bind (ofExcept (.mapM (mishap_job Errand.stopping clouds) _)) fun _ =>
    bind (ofAction _) fun _ => ite (throw rfl) (pure _)

theorem wakeRoles (s : Surroundings ω) (d : ClusterDescriptor) : (s.wakeRoles d).OnlyMishaps :=
  bind (checkInterrupted s) fun _ => bind (ofExcept (s.mishap_rolesOf d)) fun _ => runPhase _ _ _

theorem raze (s : Surroundings ω) (d : ClusterDescriptor) : (s.raze d).OnlyMishaps :=
  bind (ofExcept (s.mishap_cloudsFor _)) fun clouds =>
    bind (ofExcept (.mapM (mishap_job Errand.terminating clouds) _)) fun _ =>
    bind (ofAction _) fun _ =>
    bind (ofExcept (.mapM (mishap_job Errand.destroying clouds) _)) fun _ =>
    bind (ofAction _) fun _ => pure _

end Work.OnlyMishaps

end BenchCluster
