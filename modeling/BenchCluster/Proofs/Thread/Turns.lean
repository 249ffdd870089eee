import Mathlib.Data.List.Forall2
import BenchCluster.Thread

/-! # Threads that take turns

Which thread is next, and what may come of threads that run at once: their calls are made in some
order, each from the state that the one before it has left.
-/

namespace BenchCluster

namespace Thread

variable {m : Type → Type} {σ α β : Type}

def All (P : m β → Prop) : Thread m β α → Prop
  | .done _ => True
  | .call _ act next => P act ∧ ∀ answer, (next answer).All P

def NotBefore (time : Duration) : Thread m β α → Prop
  | .done _ => True
  | .call begins _ _ => time ≤ begins

def After (time : Duration) : Thread m β α → Prop
  | .done _ => True
  | .call begins _ _ => time < begins

theorem NotBefore.mono {t : Thread m β α} {time earlier : Duration} (h : t.NotBefore time)
    (hle : earlier ≤ time) : t.NotBefore earlier := by
  cases t with
  | done result => trivial
  | call begins act next => exact Nat.le_trans hle h

theorem After.notBefore {t : Thread m β α} {time : Duration} (h : t.After time) :
    t.NotBefore time := by
  cases t with
  | done result => trivial
  | call begins act next => exact Nat.le_of_lt h

theorem due?_eq_none_iff {threads : List (Thread m β α)} :
    due? threads = none ↔ ∀ t ∈ threads, ∃ result, t = .done result := by
  induction threads with
  | nil => simp [due?]
  | cons t rest ih =>
    cases t with
    | done result => simp [due?, ih]
    | call begins act next =>
      rw [due?]
      cases hrest : due? rest with
      | none => simp
      | some d => by_cases hlt : d.begins < begins <;> simp [hlt]

/-- A turn is that of a thread whose call begins no later than any other, and before those of the
threads in front of it. -/
theorem due?_spec {threads : List (Thread m β α)} {d : Due m β α} (h : due? threads = some d) :
    threads = d.before ++ .call d.begins d.act d.next :: d.after ∧
      (∀ t ∈ d.before, t.After d.begins) ∧ ∀ t ∈ d.after, t.NotBefore d.begins := by
  induction threads generalizing d with
  | nil => cases h
  | cons t rest ih =>
    cases t with
    | done result =>
      obtain ⟨later, hlater, rfl⟩ := Option.map_eq_some_iff.1 h
      obtain ⟨hthreads, hbefore, hafter⟩ := ih hlater
      refine ⟨congrArg (_ :: ·) hthreads, fun t ht => ?_, hafter⟩
      rcases List.mem_cons.1 ht with rfl | ht
      · trivial
      · exact hbefore t ht
    | call begins act next =>
      rw [due?] at h
      cases hrest : due? rest with
      | none =>
        simp only [hrest, Option.map_none, Option.some.injEq] at h
        subst h
        refine ⟨rfl, by simp, fun t ht => ?_⟩
        obtain ⟨result, rfl⟩ := due?_eq_none_iff.1 hrest t ht
        trivial
      | some later =>
        obtain ⟨hthreads, hbefore, hafter⟩ := ih hrest
        simp only [hrest, Option.map_some] at h
        by_cases hlt : later.begins < begins
        · obtain rfl := Option.some.inj ((if_pos hlt).symm.trans h)
          refine ⟨congrArg (_ :: ·) hthreads, fun t ht => ?_, hafter⟩
          rcases List.mem_cons.1 ht with rfl | ht
          · exact hlt
          · exact hbefore t ht
        · obtain rfl := Option.some.inj ((if_neg hlt).symm.trans h)
          -- No call of the others begins before the one that is due among them.
          have hle : begins ≤ later.begins := Nat.le_of_not_lt hlt
          refine ⟨rfl, by simp, fun t ht => ?_⟩
          rw [hthreads] at ht
          rcases List.mem_append.1 ht with ht | ht
          · exact (hbefore t ht).notBefore.mono hle
          · rcases List.mem_cons.1 ht with rfl | ht
            · exact hle
            · exact (hafter t ht).mono hle

/-- A thread whose call begins no later than any other, and before those of the threads in front of
it, is the next one. -/
theorem due?_append {before after : List (Thread m β α)} {begins : Duration} {act : m β}
    {next : β → Thread m β α} (hbefore : ∀ t ∈ before, t.After begins)
    (hafter : ∀ t ∈ after, t.NotBefore begins) :
    due? (before ++ .call begins act next :: after) = some ⟨before, begins, act, next, after⟩ := by
  induction before with
  | nil =>
    rw [List.nil_append, due?]
    cases hlater : due? after with
    | none => rfl
    | some d =>
      have hmem : Thread.call d.begins d.act d.next ∈ after := by
        rw [(due?_spec hlater).1]
        simp
      exact if_neg (Nat.not_lt.2 (hafter _ hmem))
  | cons t rest ih =>
    have hrest := ih fun t ht => hbefore t (List.mem_cons_of_mem _ ht)
    cases t with
    | done result =>
      rw [List.cons_append, due?, hrest]
      rfl
    | call begins' act' next' =>
      rw [List.cons_append, due?, hrest]
      exact if_pos (hbefore _ List.mem_cons_self)

/-! ## What may come of threads -/

/-- A way for threads to take turns, with their results in the order of the list and the state
after them. -/
inductive TakeTurns : List (Thread (StateM σ) β α) → σ → List α → σ → Prop
  | ended (results : List α) (s : σ) : TakeTurns (results.map .done) s results s
  | turn {before after : List (Thread (StateM σ) β α)} {begins : Duration} {act : StateM σ β}
      {next : β → Thread (StateM σ) β α} {s last : σ} {results : List α}
      (rest : TakeTurns (before ++ next (act s).1 :: after) (act s).2 results last) :
      TakeTurns (before ++ .call begins act next :: after) s results last

theorem takeTurns_mapM_run (finished : List α) (threads : List (Thread (StateM σ) β α)) (s : σ) :
    TakeTurns (finished.map .done ++ threads) s (finished ++ (threads.mapM run s).1)
      (threads.mapM run s).2 := by
  induction threads generalizing finished s with
  | nil =>
    have hnil : ([] : List (Thread (StateM σ) β α)).mapM run s = ([], s) := rfl
    rw [hnil, List.append_nil, List.append_nil]
    exact .ended finished s
  | cons t rest ih =>
    -- The first thread makes all its calls before the others; those in front of it have ended.
    induction t generalizing s with
    | done result =>
      have h := ih (finished ++ [result]) s
      rw [List.map_append, List.append_assoc, List.append_assoc] at h
      rw [List.mapM_cons]
      exact h
    | call begins act next ihnext =>
      have hstep : (.call begins act next :: rest : List (Thread (StateM σ) β α)).mapM run s =
          (next (act s).1 :: rest).mapM run (act s).2 := by
        rw [List.mapM_cons, List.mapM_cons]
        rfl
      rw [hstep]
      exact .turn (ihnext (act s).1 (act s).2)

/-- Threads that run at once take turns. -/
theorem takeTurns_runAll (calls : Nat) (threads : List (Thread (StateM σ) β α)) (s : σ) :
    TakeTurns threads s (runAll calls threads s).1 (runAll calls threads s).2 := by
  induction calls generalizing threads s with
  | zero => exact takeTurns_mapM_run [] threads s
  | succ calls ih =>
    rw [runAll]
    cases hdue : due? threads with
    | none => exact takeTurns_mapM_run [] threads s
    | some d =>
      rw [(due?_spec hdue).1]
      exact .turn (ih _ _)

theorem forall_mem_replaced {γ : Type} {P : γ → Prop} {before after : List γ} {a b : γ}
    (h : ∀ c ∈ before ++ a :: after, P c) (hb : P b) : ∀ c ∈ before ++ b :: after, P c := by
  simp only [List.forall_mem_append, List.forall_mem_cons] at h ⊢
  exact ⟨h.1, hb, h.2.2⟩

theorem exists_of_forall₂_of_mem {γ δ : Type} {R : γ → δ → Prop} {l : List γ} {l' : List δ}
    (h : List.Forall₂ R l l') {a : γ} (ha : a ∈ l) : ∃ b ∈ l', R a b := by
  obtain ⟨i, hi, rfl⟩ := List.getElem_of_mem ha
  have hi' : i < l'.length := h.length_eq ▸ hi
  exact ⟨l'[i], List.getElem_mem hi', h.get hi hi'⟩

theorem exists_of_forall₂_append_cons {γ δ : Type} {R : γ → δ → Prop} {l : List γ}
    {before after : List δ} {b : δ} (h : List.Forall₂ R l (before ++ b :: after)) :
    ∃ first a others, l = first ++ a :: others ∧ List.Forall₂ R first before ∧ R a b ∧
      List.Forall₂ R others after := by
  obtain ⟨a, others, hb, hafter, hdrop⟩ :=
    List.forall₂_cons_right_iff.1 (List.forall₂_drop_append l before _ h)
  exact ⟨l.take before.length, a, others, hdrop ▸ (List.take_append_drop before.length l).symm,
    List.forall₂_take_append l before _ h, hb, hafter⟩

/-! ## How many calls there are -/

/-- A thread makes at most so many calls, whatever they answer. -/
def Within : Nat → Thread m β α → Prop
  | _, .done _ => True
  | 0, .call _ _ _ => False
  | calls + 1, .call _ _ next => ∀ answer, (next answer).Within calls

theorem within_done (calls : Nat) (result : α) :
    (.done result : Thread m β α).Within calls := by
  cases calls <;> trivial

def AllWithin : Nat → List (Thread m β α) → Prop
  | _, [] => True
  | calls, t :: rest => ∃ first others, first + others ≤ calls ∧ t.Within first ∧ AllWithin others rest

theorem allWithin_of_forall {calls : Nat} {threads : List (Thread m β α)}
    (h : ∀ t ∈ threads, t.Within calls) : AllWithin (threads.length * calls) threads := by
  induction threads with
  | nil => trivial
  | cons t rest ih =>
    obtain ⟨ht, hrest⟩ := List.forall_mem_cons.1 h
    refine ⟨calls, rest.length * calls, ?_, ht, ih hrest⟩
    rw [List.length_cons, Nat.add_mul]
    omega

theorem AllWithin.turn {calls : Nat} {before after : List (Thread m β α)} {begins : Duration}
    {act : m β} {next : β → Thread m β α}
    (h : AllWithin calls (before ++ .call begins act next :: after)) :
    ∃ fewer, calls = fewer + 1 ∧ ∀ answer, AllWithin fewer (before ++ next answer :: after) := by
  induction before generalizing calls with
  | nil =>
    obtain ⟨first, others, hle, hcall, hafter⟩ := h
    cases first with
    | zero => exact hcall.elim
    | succ first =>
      refine ⟨calls - 1, by omega, fun answer => ⟨first, others, by omega, hcall answer, hafter⟩⟩
  | cons t rest ih =>
    obtain ⟨first, others, hle, ht, hrest⟩ := h
    obtain ⟨fewer, rfl, hmore⟩ := ih hrest
    exact ⟨calls - 1, by omega, fun answer => ⟨first, fewer, by omega, ht, hmore answer⟩⟩

/-! ## The calls of each thread -/

/-- A call that has been made, and the state in which it was made. -/
structure Turn (σ β : Type) where
  act : StateM σ β
  state : σ

namespace Turn

def answer (c : Turn σ β) : β := (c.act c.state).1

def after (c : Turn σ β) : σ := (c.act c.state).2

def Follow : σ → List (Turn σ β) → σ → Prop
  | s, [], last => last = s
  | s, c :: rest, last => c.state = s ∧ Follow c.after rest last

end Turn

/-- The calls that a thread has made until it has ended with a result. -/
inductive EndsBy : Thread (StateM σ) β α → List (Turn σ β) → α → Prop
  | done (result : α) : EndsBy (.done result) [] result
  | call (c : Turn σ β) {begins : Duration} {next : β → Thread (StateM σ) β α}
      {calls : List (Turn σ β)} {result : α} (rest : EndsBy (next c.answer) calls result) :
      EndsBy (.call begins c.act next) (c :: calls) result

theorem EndsBy.of_done {result ending : α} {calls : List (Turn σ β)}
    (h : (Thread.done result : Thread (StateM σ) β α).EndsBy calls ending) :
    calls = [] ∧ ending = result := by
  cases h
  exact ⟨rfl, rfl⟩

theorem EndsBy.of_call {begins : Duration} {act : StateM σ β} {next : β → Thread (StateM σ) β α}
    {calls : List (Turn σ β)} {result : α}
    (h : (Thread.call begins act next).EndsBy calls result) :
    ∃ c rest, calls = c :: rest ∧ c.act = act ∧ (next c.answer).EndsBy rest result := by
  generalize ht : Thread.call begins act next = t at h
  cases h with
  | done result => cases ht
  | call c rest =>
    cases ht
    exact ⟨c, _, rfl, rfl, rest⟩

theorem endsBy_run (t : Thread (StateM σ) β α) (s : σ) :
    ∃ calls, t.EndsBy calls (t.run s).1 ∧ Turn.Follow s calls (t.run s).2 := by
  induction t generalizing s with
  | done result => exact ⟨[], .done result, rfl⟩
  | call begins act next ih =>
    let c : Turn σ β := ⟨act, s⟩
    obtain ⟨calls, hends, hfollow⟩ := ih c.answer c.after
    exact ⟨c :: calls, .call c hends, rfl, hfollow⟩

/-- What threads that take turns have done: the calls are made one after the other, and each thread
has a share of them, in their order. -/
theorem TakeTurns.shares {threads : List (Thread (StateM σ) β α)} {s last : σ} {results : List α}
    (h : TakeTurns threads s results last) :
    ∃ (calls : List (Turn σ β)) (ends : List (List (Turn σ β) × α)),
      Turn.Follow s calls last ∧ ends.map Prod.snd = results ∧
        List.Forall₂ (fun e t => t.EndsBy e.1 e.2) ends threads ∧
        calls.Perm (ends.map Prod.fst).flatten ∧ ∀ e ∈ ends, e.1.Sublist calls := by
  induction h with
  | ended results s =>
    refine ⟨[], results.map ([], ·), rfl, by simp [Function.comp_def], ?_, ?_, by simp⟩
    · rw [List.forall₂_map_left_iff, List.forall₂_map_right_iff, List.forall₂_same]
      exact fun result _ => .done result
    · induction results with
      | nil => exact .refl _
      | cons result rest ih => exact ih
  | @turn before after begins act next s last results rest ih =>
    obtain ⟨calls, ends, hfollow, hresults, hends, hperm, hsub⟩ := ih
    let c : Turn σ β := ⟨act, s⟩
    -- The call goes to the front of the share of the thread whose turn it was.
    obtain ⟨first, e, others, rfl, hfirst, hnext, hothers⟩ := exists_of_forall₂_append_cons hends
    refine ⟨c :: calls, first ++ (c :: e.1, e.2) :: others, ⟨rfl, hfollow⟩, ?_,
      List.rel_append hfirst (.cons (.call c hnext) hothers), ?_, fun e' he' => ?_⟩
    · simpa using hresults
    · rw [List.map_append, List.flatten_append] at hperm ⊢
      exact (hperm.cons c).trans List.perm_middle.symm
    · rcases List.mem_append.1 he' with he' | he'
      · exact (hsub e' (List.mem_append_left _ he')).cons c
      · rcases List.mem_cons.1 he' with rfl | he'
        · exact (hsub e (by simp)).cons_cons c
        · exact (hsub e' (by simp [he'])).cons c

end Thread

end BenchCluster
