import BenchCluster.Proofs.Journal.Books
import BenchCluster.Proofs.Orchestrator.Carried

/-! # Computations that only add to the journal

A computation enters calls of a kind if it leaves the stored descriptors alone and its new entries
are all of that kind. The property is kept by sequencing, so it holds of whole phases.
-/

namespace BenchCluster

variable {ω α β : Type} {P : OutsideCall → Prop}

/-- The computation leaves the stored descriptors alone and makes calls of one kind only. -/
def Enters (P : OutsideCall → Prop) (act : Action (Booked ω) α) : Prop :=
  ∀ inv, ∃ entries, (∀ e ∈ entries, P e.call) ∧ (act inv).2.books = inv.books.enter entries

/-- The work fails after calls of one kind and leaves the stored descriptors alone. -/
def Failed (P : OutsideCall → Prop) (inv : Invocation (Booked ω))
    (outcome : Except OrchestratorError α × Invocation (Booked ω)) : Prop :=
  ∃ e after entries, (∀ y ∈ entries, P y.call) ∧ outcome = (.error e, after) ∧
    after.books = inv.books.enter entries

theorem Failed.at_once {inv : Invocation (Booked ω)} {e : OrchestratorError}
    {outcome : Except OrchestratorError α × Invocation (Booked ω)} (h : outcome = (.error e, inv)) :
    Failed P inv outcome :=
  ⟨e, inv, [], by simp, h, (Books.enter_nil _).symm⟩

def Entered (P : OutsideCall → Prop) (inv after : Invocation (Booked ω)) : Prop :=
  ∃ entries, (∀ e ∈ entries, P e.call) ∧ after.books = inv.books.enter entries

instance : IsPreorder (Invocation (Booked ω)) (Entered P) where
  refl inv := ⟨[], by simp, (Books.enter_nil _).symm⟩
  trans inv mid after := by
    rintro ⟨first, hfirst, hmid⟩ ⟨second, hsecond, hlast⟩
    refine ⟨first ++ second, fun e he => ?_, by rw [hlast, hmid, Books.enter_enter]⟩
    rcases List.mem_append.1 he with he | he
    · exact hfirst e he
    · exact hsecond e he

namespace Enters

theorem imp {Q : OutsideCall → Prop} {act : Action (Booked ω) α} (h : Enters P act)
    (hQ : ∀ c, P c → Q c) : Enters Q act := by
  intro inv
  obtain ⟨entries, hentries, hbooks⟩ := h inv
  exact ⟨entries, fun e he => hQ e.call (hentries e he), hbooks⟩

theorem pure (a : α) : Enters P (Pure.pure a : Action (Booked ω) α) :=
  Carries.pure (R := Entered P) a

theorem journaled {s : Surroundings ω} {entry : α → OutsideCall} {act : Action ω α}
    (h : ∀ a, P (entry a)) : Enters P (s.journaled entry act) :=
  fun _ => ⟨[⟨_, entry _⟩], by simpa using h _, rfl⟩

theorem outside_journaled {s : Surroundings ω} {entry : α → OutsideCall} {act : StateM ω α}
    (h : ∀ a, P (entry a)) : Enters P (Action.outside (s.journaledOutside entry act)) :=
  fun _ => ⟨[⟨_, entry _⟩], by simpa using h _, rfl⟩

theorem count (change : Metrics → Metrics) : Enters (ω := ω) P (Action.count change) :=
  fun _ => ⟨[], by simp, (Books.enter_nil _).symm⟩

/-! ## Work -/

theorem work_bind {x : Work (Booked ω) α} {f : α → Work (Booked ω) β} (hx : Enters P x.outcome)
    (hf : ∀ a, Enters P (f a).outcome) : Enters P (x >>= f).outcome :=
  Carries.work_bind (R := Entered P) hx hf

theorem work_pure (a : α) : Enters P (Pure.pure a : Work (Booked ω) α).outcome :=
  pure _

theorem ofAction {act : Action (Booked ω) α} (h : Enters P act) :
    Enters P (Work.ofAction act).outcome :=
  h

theorem ofExcept {ε : Type} (wrap : ε → OrchestratorError) (x : Except ε α) :
    Enters (ω := ω) P (Work.ofExcept wrap x).outcome :=
  Carries.ofExcept (R := Entered P) wrap x

theorem bind_ofExcept {ε : Type} {wrap : ε → OrchestratorError} {x : Except ε α}
    {f : α → Work (Booked ω) β} (h : ∀ a, x = .ok a → Enters P (f a).outcome) :
    Enters P (Work.ofExcept wrap x >>= f).outcome :=
  Carries.bind_ofExcept (R := Entered P) h

theorem ofFallible {ε : Type} {wrap : ε → OrchestratorError}
    {act : Action (Booked ω) (Except ε α)} (h : Enters P act) :
    Enters P (Work.ofFallible wrap act).outcome :=
  h

theorem work_forM {l : List α} {f : α → Work (Booked ω) PUnit}
    (h : ∀ a, Enters P (f a).outcome) : Enters P (l.forM f).outcome :=
  Carries.forM (R := Entered P) h

theorem checkInterrupted (s : Surroundings (Booked ω)) : Enters P s.checkInterrupted.outcome :=
  Carries.checkInterrupted (R := Entered P) s

theorem loadFor (s : Surroundings ω) (cluster : String) (operation : Operation) :
    Enters P (s.booked.loadFor cluster operation).outcome :=
  work_bind (ofFallible fun _ => ⟨[], by simp, by rw [Books.enter_nil]; rfl⟩) fun _ =>
    work_bind (ofExcept _ _) fun _ => work_bind (checkInterrupted _) fun _ => work_pure _

/-- The first part of a piece of work fails and ends it, or the rest goes on from its books. -/
theorem bind_cases {x : Work (Booked ω) α} (hx : Enters P x.outcome) (f : α → Work (Booked ω) β)
    (inv : Invocation (Booked ω)) :
    Failed P inv ((x >>= f).outcome inv) ∨
      ∃ a mid entries, (∀ en ∈ entries, P en.call) ∧ x.outcome inv = (.ok a, mid) ∧
        mid.books = inv.books.enter entries ∧ (x >>= f).outcome inv = (f a).outcome mid := by
  obtain ⟨entries, hentries, hbooks⟩ := hx inv
  rcases Work.bind_cases x f inv with ⟨e, mid, hmid, houtcome⟩ | ⟨a, mid, hmid, houtcome⟩
  · rw [hmid] at hbooks
    exact .inl ⟨e, mid, entries, hentries, houtcome, hbooks⟩
  · rw [hmid] at hbooks
    exact .inr ⟨a, mid, entries, hentries, hmid, hbooks, houtcome⟩

end Enters

end BenchCluster
