import BenchCluster.Orchestrator.Basic
import BenchCluster.Proofs.Fallible

/-! # Running work

A piece of work started on an invocation answers with a result and leaves an invocation behind.
The lemmas take it apart at its steps.
-/

namespace BenchCluster

variable {ω α β ε : Type}

namespace Work

/-- What a piece of work answers, and the invocation it leaves. -/
def outcome (x : Work ω α) (inv : Invocation ω) : Except OrchestratorError α × Invocation ω :=
  x.run inv

theorem outcome_pure (a : α) (inv : Invocation ω) : (pure a : Work ω α).outcome inv = (.ok a, inv) :=
  rfl

theorem outcome_throw (e : OrchestratorError) (inv : Invocation ω) :
    (throw e : Work ω α).outcome inv = (.error e, inv) :=
  rfl

theorem outcome_ofAction (act : Action ω α) (inv : Invocation ω) :
    (ofAction act).outcome inv = (.ok (act inv).1, (act inv).2) :=
  rfl

theorem outcome_ofExcept (wrap : ε → OrchestratorError) (x : Except ε α) (inv : Invocation ω) :
    (ofExcept wrap x).outcome inv = (x.mapError wrap, inv) :=
  rfl

theorem bind_of_ok {x : Work ω α} {f : α → Work ω β} {inv mid : Invocation ω} {a : α}
    (h : x.outcome inv = (.ok a, mid)) : (x >>= f).outcome inv = (f a).outcome mid :=
  Fallible.run_bind_of_ok h

theorem bind_of_error {x : Work ω α} {f : α → Work ω β} {inv mid : Invocation ω}
    {e : OrchestratorError} (h : x.outcome inv = (.error e, mid)) :
    (x >>= f).outcome inv = (.error e, mid) :=
  Fallible.run_bind_of_error h

theorem bind_ofAction (act : Action ω α) (f : α → Work ω β) (inv : Invocation ω) :
    (ofAction act >>= f).outcome inv = (f (act inv).1).outcome (act inv).2 :=
  rfl

theorem bind_ofExcept_of_ok {wrap : ε → OrchestratorError} {x : Except ε α} {a : α}
    (h : x = .ok a) (f : α → Work ω β) (inv : Invocation ω) :
    (ofExcept wrap x >>= f).outcome inv = (f a).outcome inv := by
  rw [h]
  rfl

theorem bind_ofExcept_of_error {wrap : ε → OrchestratorError} {x : Except ε α} {e : ε}
    (h : x = .error e) (f : α → Work ω β) (inv : Invocation ω) :
    (ofExcept wrap x >>= f).outcome inv = (.error (wrap e), inv) := by
  rw [h]
  rfl

/-- The first part of a piece of work fails and ends it, or it succeeds and the rest goes on from
the invocation it leaves. -/
theorem bind_cases (x : Work ω α) (f : α → Work ω β) (inv : Invocation ω) :
    (∃ e mid, x.outcome inv = (.error e, mid) ∧ (x >>= f).outcome inv = (.error e, mid)) ∨
      ∃ a mid, x.outcome inv = (.ok a, mid) ∧ (x >>= f).outcome inv = (f a).outcome mid := by
  rcases h : x.outcome inv with ⟨e | a, mid⟩
  · exact .inl ⟨e, mid, rfl, bind_of_error h⟩
  · exact .inr ⟨a, mid, rfl, bind_of_ok h⟩

theorem exists_of_bind_ok {x : Work ω α} {f : α → Work ω β} {inv after : Invocation ω} {b : β}
    (h : (x >>= f).outcome inv = (.ok b, after)) :
    ∃ a mid, x.outcome inv = (.ok a, mid) ∧ (f a).outcome mid = (.ok b, after) := by
  rcases bind_cases x f inv with ⟨e, mid, -, houtcome⟩ | ⟨a, mid, hx, houtcome⟩
  · rw [houtcome] at h
    cases h
  · exact ⟨a, mid, hx, houtcome.symm.trans h⟩

theorem exists_of_forM_ok {f : α → Work ω PUnit} {l : List α} {inv after : Invocation ω} {u : PUnit}
    (h : (l.forM f).outcome inv = (.ok u, after)) :
    ∀ a ∈ l, ∃ u before later, (f a).outcome before = (.ok u, later) := by
  induction l generalizing inv with
  | nil => simp
  | cons a rest ih =>
    obtain ⟨v, mid, hfirst, hrest⟩ := exists_of_bind_ok (x := f a) (f := fun _ => rest.forM f) h
    intro b hb
    rcases List.mem_cons.1 hb with rfl | hb
    · exact ⟨v, inv, mid, hfirst⟩
    · exact ih hrest b hb

theorem outcome_map (f : α → β) (x : Work ω α) (inv : Invocation ω) :
    (x >>= fun a => return f a).outcome inv = ((x.outcome inv).1.map f, (x.outcome inv).2) := by
  rcases bind_cases x (fun a => return f a) inv with ⟨e, mid, hx, hbind⟩ | ⟨a, mid, hx, hbind⟩
  · rw [hbind, hx]
    rfl
  · rw [hbind, hx]
    rfl

theorem outcome_some (x : Work ω α) (inv : Invocation ω) :
    (x >>= fun a => return some a).outcome inv =
      ((x.outcome inv).1.map some, (x.outcome inv).2) :=
  outcome_map some x inv

end Work

theorem Surroundings.outcome_checkInterrupted (s : Surroundings ω) (inv : Invocation ω) :
    s.checkInterrupted.outcome inv =
      (if s.interrupted inv.outside then .error .interrupted else .ok (), inv) := by
  rw [checkInterrupted, Work.bind_of_ok (Work.outcome_ofAction get inv)]
  change (if s.interrupted inv.outside then throw .interrupted else pure () : Work ω Unit).outcome
    inv = _
  by_cases h : s.interrupted inv.outside
  · rw [if_pos h, if_pos h, Work.outcome_throw]
  · rw [if_neg h, if_neg h, Work.outcome_pure]

end BenchCluster
