import BenchCluster.Proofs.Fallible
import BenchCluster.Proofs.Journal.Pool
import BenchCluster.Orchestrator.Install

/-! # How work can fail

Work that fails with errors of one kind only is put together from such work. Of two pieces one after
the other, an error of another kind comes from the one that is not of this kind.
-/

namespace BenchCluster

variable {ω α β ε ρ : Type} {P : OrchestratorError → Prop}

/-! ## Results -/

def FailsOnly (P : OrchestratorError → Prop) (x : Except OrchestratorError α) : Prop :=
  ∀ e, x = .error e → P e

namespace FailsOnly

theorem ok (a : α) : FailsOnly P (.ok a) := by
  intro e he
  cases he

theorem error {e : OrchestratorError} (h : P e) :
    FailsOnly P (.error e : Except OrchestratorError α) := by
  rintro _ ⟨⟩
  exact h

theorem mapError {wrap : ε → OrchestratorError} (h : ∀ e, P (wrap e)) (x : Except ε α) :
    FailsOnly P (x.mapError wrap) := by
  cases x with
  | error e => exact error (h e)
  | ok a => exact ok a

theorem bind {x : Except OrchestratorError α} {f : α → Except OrchestratorError β}
    (hx : FailsOnly P x) (hf : ∀ a, FailsOnly P (f a)) : FailsOnly P (x >>= f) := by
  cases x with
  | error e => exact error (hx e rfl)
  | ok a => exact hf a

theorem mapM {f : α → Except OrchestratorError β} (hf : ∀ a, FailsOnly P (f a)) (l : List α) :
    FailsOnly P (l.mapM f) := by
  induction l with
  | nil => exact ok []
  | cons a rest ih =>
    rw [List.mapM_cons]
    exact bind (hf a) fun _ => bind ih fun _ => ok _

theorem hostsOf (h : ∀ name, P (.noAddress name)) (defaultPort : UInt16)
    (machines : List Machine) : FailsOnly P (hostsOf defaultPort machines) := by
  refine mapM (fun m => ?_) machines
  cases Host.ofMachine? defaultPort m with
  | none => exact error (h m.name)
  | some host => exact ok host

theorem checkPhase (h : ∀ phase failures, P (.phaseFailed phase failures)) (phase : Phase)
    (results : List (String × Except RoleError α)) : FailsOnly P (checkPhase phase results) := by
  rw [BenchCluster.checkPhase]
  split
  · exact ok _
  · exact error (h _ _)

theorem job (h : ∀ environment, P (.unlistedEnvironment environment)) (e : Errand ρ α)
    (clouds : Dict (Cloud ω)) (r : ρ) : FailsOnly P (e.job clouds r) := by
  refine bind ?_ fun _ => ok _
  rw [cloudOf]
  cases clouds.find? (e.place r) with
  | none => exact error (h _)
  | some cloud => exact ok cloud

end FailsOnly

/-! ## Work -/

namespace Work

/-- If the work fails, it is with an error of a kind. -/
def FailsOnly (P : OrchestratorError → Prop) (x : Work ω α) : Prop :=
  ∀ inv, BenchCluster.FailsOnly P (x.outcome inv).1

namespace FailsOnly

theorem pure (a : α) : FailsOnly P (Pure.pure a : Work ω α) := fun _ => .ok a

theorem throw {e : OrchestratorError} (h : P e) : FailsOnly P (throw e : Work ω α) :=
  fun _ => .error h

theorem bind {x : Work ω α} {f : α → Work ω β} (hx : x.FailsOnly P)
    (hf : ∀ a, (f a).FailsOnly P) : (x >>= f).FailsOnly P := by
  intro inv
  rcases Work.bind_cases x f inv with ⟨e, mid, hmid, houtcome⟩ | ⟨a, mid, -, houtcome⟩
  · have hfirst := hx inv
    rw [hmid] at hfirst
    rw [houtcome]
    exact .error (hfirst e rfl)
  · rw [houtcome]
    exact hf a mid

theorem ite {c : Prop} [Decidable c] {x y : Work ω α} (hx : x.FailsOnly P)
    (hy : y.FailsOnly P) : (if c then x else y).FailsOnly P := by
  split
  · exact hx
  · exact hy

theorem ofAction (act : Action ω α) : (Work.ofAction act).FailsOnly P := fun _ => .ok _

theorem ofExcept {x : Except OrchestratorError α} (h : BenchCluster.FailsOnly P x) :
    (Work.ofExcept (ω := ω) id x).FailsOnly P := by
  intro inv
  cases x with
  | error e => exact .error (h e rfl)
  | ok a => exact .ok a

theorem wrapped {wrap : ε → OrchestratorError} (h : ∀ e, P (wrap e)) (x : Except ε α) :
    (Work.ofExcept (ω := ω) wrap x).FailsOnly P :=
  fun _ => .mapError h x

theorem ofFallible {wrap : ε → OrchestratorError} (h : ∀ e, P (wrap e))
    (act : Action ω (Except ε α)) : (Work.ofFallible wrap act).FailsOnly P :=
  fun _ => .mapError h _

theorem forM {f : α → Work ω PUnit} (h : ∀ a, (f a).FailsOnly P) (l : List α) :
    (l.forM f).FailsOnly P := by
  induction l with
  | nil => exact pure _
  | cons a rest ih => exact bind (h a) fun _ => ih

theorem checkInterrupted (h : P .interrupted) (s : Surroundings ω) :
    s.checkInterrupted.FailsOnly P :=
  bind (ofAction _) fun _ => ite (throw h) (pure _)

theorem runPhase (h : ∀ phase failures, P (.phaseFailed phase failures)) (phase : Phase)
    (step : Role ω → Action ω (Except RoleError Unit)) (roles : List (RoleEntry ω)) :
    (runPhase phase step roles).FailsOnly P :=
  bind (ofAction _) fun _ => ofExcept (.checkPhase h _ _)

end FailsOnly

/-! ## Where an error comes from -/

variable {x : Work ω α} {f : α → Work ω β} {inv after : Invocation ω} {e : OrchestratorError}

theorem error_of_ofExcept {result : Except OrchestratorError α}
    (h : (Work.ofExcept id result >>= f).outcome inv = (.error e, after)) :
    (result = .error e ∧ after = inv) ∨
      ∃ a, result = .ok a ∧ (f a).outcome inv = (.error e, after) := by
  cases result with
  | error e' =>
    rw [Work.bind_ofExcept_of_error rfl] at h
    cases h
    exact .inl ⟨rfl, rfl⟩
  | ok a => exact .inr ⟨a, rfl, h⟩

theorem ok_of_ofExcept {result : Except OrchestratorError α} {b : β}
    (h : (Work.ofExcept id result >>= f).outcome inv = (.ok b, after)) :
    ∃ a, result = .ok a ∧ (f a).outcome inv = (.ok b, after) := by
  cases result with
  | error e =>
    rw [Work.bind_ofExcept_of_error rfl] at h
    cases h
  | ok a => exact ⟨a, rfl, h⟩

namespace FailsOnly

/-- An error that the first part of the work cannot give comes from the rest. -/
theorem error_of_rest (hx : x.FailsOnly P) (he : ¬ P e)
    (h : (x >>= f).outcome inv = (.error e, after)) :
    ∃ a mid, x.outcome inv = (.ok a, mid) ∧ (f a).outcome mid = (.error e, after) := by
  rcases Work.bind_cases x f inv with ⟨e', mid, hmid, houtcome⟩ | ⟨a, mid, hmid, houtcome⟩
  · rw [houtcome] at h
    cases h
    have hfirst := hx inv
    rw [hmid] at hfirst
    exact absurd (hfirst e rfl) he
  · exact ⟨a, mid, hmid, houtcome.symm.trans h⟩

/-- An error that the rest of the work cannot give comes from the first part. -/
theorem error_of_first (hf : ∀ a, (f a).FailsOnly P) (he : ¬ P e)
    (h : (x >>= f).outcome inv = (.error e, after)) : x.outcome inv = (.error e, after) := by
  rcases Work.bind_cases x f inv with ⟨e', mid, hmid, houtcome⟩ | ⟨a, mid, -, houtcome⟩
  · rw [houtcome] at h
    cases h
    exact hmid
  · have hrest := hf a mid
    rw [← houtcome, h] at hrest
    exact absurd (hrest e rfl) he

end FailsOnly

end Work

end BenchCluster
