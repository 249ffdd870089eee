import Mathlib.Order.Defs.Unbundled
import BenchCluster.Orchestrator.Install
import BenchCluster.Proofs.Orchestrator.Work
import BenchCluster.Proofs.Retry.Course

/-! # What computations carry

A computation carries a relation between invocations if the one it finds and the one it leaves
always stand in it. A relation that is reflexive and transitive is carried by everything that is
put together from computations that carry it.
-/

namespace BenchCluster

variable {ω α β ε : Type} {R : Invocation ω → Invocation ω → Prop}

/-- The invocation that a computation finds and the one that it leaves stand in a relation. -/
def Carries (R : Invocation ω → Invocation ω → Prop) (act : Action ω α) : Prop :=
  ∀ inv, R inv (act inv).2

namespace Carries

theorem ite {c : Prop} [Decidable c] {act other : Action ω α} (hact : Carries R act)
    (hother : Carries R other) : Carries R (if c then act else other) := by
  split
  · exact hact
  · exact hother

theorem ofAction {act : Action ω α} (h : Carries R act) : Carries R (Work.ofAction act).outcome :=
  h

theorem ofFallible {wrap : ε → OrchestratorError} {act : Action ω (Except ε α)}
    (h : Carries R act) : Carries R (Work.ofFallible wrap act).outcome :=
  h

variable [IsPreorder (Invocation ω) R]

theorem pure (a : α) : Carries R (Pure.pure a : Action ω α) :=
  fun inv => refl_of R inv

theorem bind {act : Action ω α} {f : α → Action ω β} (hact : Carries R act)
    (hf : ∀ a, Carries R (f a)) : Carries R (act >>= f) :=
  fun inv => trans_of R (hact inv) (hf (act inv).1 (act inv).2)

theorem mapM {f : α → Action ω β} {l : List α} (h : ∀ a ∈ l, Carries R (f a)) :
    Carries R (l.mapM f) := by
  induction l with
  | nil =>
    rw [List.mapM_nil]
    exact pure []
  | cons a rest ih =>
    rw [List.mapM_cons]
    have hrest := ih fun b hb => h b (List.mem_cons_of_mem _ hb)
    exact bind (h a List.mem_cons_self) fun _ => bind hrest fun _ => pure _

/-! ## Threads -/

theorem thread_run {t : Thread (Action ω) β α} (h : t.All (Carries R)) : Carries R t.run := by
  induction t with
  | done result => exact pure result
  | call begins act next ih => exact bind h.1 fun answer => ih answer (h.2 answer)

/-- Threads that run at once carry what all their calls carry. -/
theorem runAll {threads : List (Thread (Action ω) β α)} (h : ∀ t ∈ threads, t.All (Carries R))
    (calls : Nat) : Carries R (Thread.runAll calls threads) := by
  induction calls generalizing threads with
  | zero => exact mapM fun t ht => thread_run (h t ht)
  | succ calls ih =>
    rw [Thread.runAll]
    cases hdue : Thread.due? threads with
    | none => exact mapM fun t ht => thread_run (h t ht)
    | some d =>
      rw [(Thread.due?_spec hdue).1] at h
      have hturn := h (.call d.begins d.act d.next) (by simp)
      exact bind hturn.1 fun answer => ih (Thread.forall_mem_replaced h (hturn.2 answer))

/-! ## Remote commands -/

theorem collect (hcount : ∀ change, Carries R (Action.count change)) (ignoreErrors : Bool)
    (results : List (Host × Except RemoteError CommandOutput)) :
    Carries R (RemoteExecutor.collect ignoreErrors results) := by
  induction results with
  | nil => exact pure _
  | cons r rest ih =>
    obtain ⟨h, e | o⟩ := r
    · exact pure _
    · have hlast : ∀ outputs : Except RemoteError (List HostOutput),
          Carries R (Pure.pure (outputs.map (RemoteExecutor.outputOf h o :: ·))) :=
        fun _ => pure _
      rw [RemoteExecutor.collect]
      apply ite
      · exact bind (hcount _) fun _ => ite (pure _) (bind ih hlast)
      · exact ite (pure _) (bind ih hlast)

theorem run {x : RemoteExecutor ω} (hcount : ∀ change, Carries R (Action.count change))
    (hexec : ∀ host script elevated limit,
      Carries R (Action.outside (x.transport.exec host script elevated limit)))
    (options : ExecOptions) (hosts : List Host) (command : RemoteCommand) :
    Carries R (x.run options hosts command) := by
  have honce (script : String) (host : Host) : Carries R (x.execOnce options script host) :=
    bind (hcount _) fun _ => bind (hexec _ _ _ _) fun _ => pure _
  have htried : Carries R (x.tryCommand options hosts command) := by
    refine runAll (fun t ht => ?_) _
    obtain ⟨host, -, rfl⟩ := List.mem_map.1 ht
    exact all_retryAfter (fun _ => honce _ host) _ _ _
  rw [RemoteExecutor.run]
  apply ite
  · exact pure _
  · exact bind htried fun _ => bind (collect hcount _ _) fun _ => pure _

/-! ## Work -/

theorem work_bind {x : Work ω α} {f : α → Work ω β} (hx : Carries R x.outcome)
    (hf : ∀ a, Carries R (f a).outcome) : Carries R (x >>= f).outcome := by
  intro inv
  have hfirst := hx inv
  rcases Work.bind_cases x f inv with ⟨e, mid, hmid, houtcome⟩ | ⟨a, mid, hmid, houtcome⟩
  · rw [hmid] at hfirst
    rw [houtcome]
    exact hfirst
  · rw [hmid] at hfirst
    rw [houtcome]
    exact trans_of R hfirst (hf a mid)

theorem ofExcept (wrap : ε → OrchestratorError) (x : Except ε α) :
    Carries R (Work.ofExcept wrap x).outcome :=
  fun inv => refl_of R inv

theorem bind_ofExcept {wrap : ε → OrchestratorError} {x : Except ε α} {f : α → Work ω β}
    (h : ∀ a, x = .ok a → Carries R (f a).outcome) :
    Carries R (Work.ofExcept wrap x >>= f).outcome := by
  cases hx : x with
  | error e => exact fun inv => refl_of R inv
  | ok a => exact h a hx

theorem forM {l : List α} {f : α → Work ω PUnit} (h : ∀ a, Carries R (f a).outcome) :
    Carries R (l.forM f).outcome := by
  induction l with
  | nil => exact pure _
  | cons a rest ih => exact work_bind (h a) fun _ => ih

theorem checkInterrupted (s : Surroundings ω) : Carries R s.checkInterrupted.outcome := by
  intro inv
  rw [Surroundings.outcome_checkInterrupted]
  exact refl_of R inv

/-! ## Roles -/

variable {roles : List (RoleEntry ω)}

theorem onEveryRole {step : Role ω → Action ω (Except RoleError α)}
    (h : ∀ entry ∈ roles, Carries R (step entry.implementation)) :
    Carries R (BenchCluster.onEveryRole step roles) :=
  mapM fun entry hentry => bind (h entry hentry) fun _ => pure _

theorem runPhase {phase : Phase} {step : Role ω → Action ω (Except RoleError Unit)}
    (h : ∀ entry ∈ roles, Carries R (step entry.implementation)) :
    Carries R (BenchCluster.runPhase phase step roles).outcome :=
  work_bind (ofAction (onEveryRole h)) fun _ => ofExcept _ _

theorem chainTargets (h : ∀ entry ∈ roles, ∀ postInstall,
      entry.implementation.proxy = some postInstall → ∀ target, Carries R (postInstall target))
    (tree : TopologyTree) (targets : List (String × Option ConnectionTarget))
    (candidate : Option ConnectionTarget) :
    Carries R (BenchCluster.chainTargets tree roles targets candidate).outcome := by
  induction targets generalizing candidate with
  | nil => exact pure _
  | cons t rest ih =>
    obtain ⟨role, none | target⟩ := t
    · exact ih candidate
    · rw [BenchCluster.chainTargets]
      cases hproxy : proxyAbove? tree roles role with
      | none => exact ih (some target)
      | some postInstall =>
        rw [proxyAbove?] at hproxy
        simp only [Option.bind_eq_bind, Option.bind_eq_some_iff] at hproxy
        obtain ⟨parent, -, entry, hentry, hpost⟩ := hproxy
        have hlead := h entry (List.mem_of_find?_eq_some hentry) postInstall hpost target
        exact work_bind (ofFallible hlead) fun chained => ih (some chained)

end Carries

end BenchCluster
