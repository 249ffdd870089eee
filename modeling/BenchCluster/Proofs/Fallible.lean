import Mathlib.Data.List.Forall2

/-! # Results that may be errors

What a result of several fallible steps says about each of them.
-/

namespace BenchCluster.Fallible

variable {α β γ δ ε ε' : Type}

theorem bind_eq_ok {x : Except ε α} {f : α → Except ε β} {b : β} :
    (x >>= f) = .ok b ↔ ∃ a, x = .ok a ∧ f a = .ok b := by
  cases x with
  | error e => simp [bind, Except.bind]
  | ok a => simp [bind, Except.bind]

theorem bind_eq_error {x : Except ε α} {f : α → Except ε β} {e : ε} :
    (x >>= f) = .error e ↔ x = .error e ∨ ∃ a, x = .ok a ∧ f a = .error e := by
  cases x with
  | error e => simp [bind, Except.bind]
  | ok a => simp [bind, Except.bind]

theorem isOk_iff {x : Except ε α} : x.isOk = true ↔ ∃ a, x = .ok a := by
  cases x <;> simp [Except.isOk, Except.toBool]

theorem mapError_eq_ok {x : Except ε α} {wrap : ε → ε'} {a : α} :
    x.mapError wrap = .ok a ↔ x = .ok a := by
  cases x <;> simp [Except.mapError]

theorem mapError_eq_error {x : Except ε α} {wrap : ε → ε'} {e : ε'} :
    x.mapError wrap = .error e ↔ ∃ cause, x = .error cause ∧ wrap cause = e := by
  cases x <;> simp [Except.mapError]

theorem map_eq_ok {x : Except ε α} {f : α → β} {b : β} :
    x.map f = .ok b ↔ ∃ a, x = .ok a ∧ f a = b := by
  cases x <;> simp [Except.map]

/-- Going through a list succeeds exactly if each step does, and the results are those of the
steps. -/
theorem mapM_eq_ok {f : α → Except ε β} {l : List α} {results : List β} :
    l.mapM f = .ok results ↔ List.Forall₂ (fun a b => f a = .ok b) l results := by
  induction l generalizing results with
  | nil =>
    rw [List.mapM_nil, List.forall₂_nil_left_iff]
    exact ⟨fun h => (Except.ok.inj h).symm, fun h => congrArg Except.ok h.symm⟩
  | cons a rest ih =>
    rw [List.mapM_cons, bind_eq_ok]
    constructor
    · rintro ⟨b, hb, hrest⟩
      obtain ⟨bs, hbs, hpure⟩ := bind_eq_ok.1 hrest
      cases hpure
      exact .cons hb (ih.1 hbs)
    · intro h
      cases h with
      | cons hb hbs => exact ⟨_, hb, bind_eq_ok.2 ⟨_, ih.2 hbs, rfl⟩⟩

theorem exists_mapM_eq_ok {f : α → Except ε β} {l : List α} (h : ∀ a ∈ l, ∃ b, f a = .ok b) :
    ∃ results, l.mapM f = .ok results := by
  induction l with
  | nil => exact ⟨[], rfl⟩
  | cons a rest ih =>
    obtain ⟨b, hb⟩ := h a List.mem_cons_self
    obtain ⟨bs, hbs⟩ := ih fun a ha => h a (List.mem_cons_of_mem _ ha)
    exact ⟨b :: bs, mapM_eq_ok.2 (.cons hb (mapM_eq_ok.1 hbs))⟩

theorem exists_of_mapM_eq_ok {f : α → Except ε β} {l : List α} {results : List β}
    (h : l.mapM f = .ok results) : ∀ a ∈ l, ∃ b ∈ results, f a = .ok b := by
  have hall := mapM_eq_ok.1 h
  clear h
  induction hall with
  | nil => simp
  | cons hb _ ih =>
    intro a ha
    rcases List.mem_cons.1 ha with rfl | ha
    · exact ⟨_, List.mem_cons_self, hb⟩
    · obtain ⟨b, hmem, hfb⟩ := ih a ha
      exact ⟨b, List.mem_cons_of_mem _ hmem, hfb⟩

theorem exists_of_mem_mapM {f : α → Except ε β} {l : List α} {results : List β}
    (h : l.mapM f = .ok results) : ∀ b ∈ results, ∃ a ∈ l, f a = .ok b := by
  have hall := mapM_eq_ok.1 h
  clear h
  induction hall with
  | nil => simp
  | cons hb _ ih =>
    intro b hmem
    rcases List.mem_cons.1 hmem with rfl | hmem
    · exact ⟨_, List.mem_cons_self, hb⟩
    · obtain ⟨a, ha, hfa⟩ := ih b hmem
      exact ⟨a, List.mem_cons_of_mem _ ha, hfa⟩

/-- Going through a list fails exactly with the error of the first step that fails. -/
theorem mapM_eq_error {f : α → Except ε β} {l : List α} {e : ε} :
    l.mapM f = .error e ↔ ∃ before a after, l = before ++ a :: after ∧
      (∀ b ∈ before, ∃ c, f b = .ok c) ∧ f a = .error e := by
  induction l with
  | nil => simp [pure, Except.pure]
  | cons a rest ih =>
    rw [List.mapM_cons, bind_eq_error]
    constructor
    · rintro (ha | ⟨b, hb, hrest⟩)
      · exact ⟨[], a, rest, rfl, by simp, ha⟩
      · rcases bind_eq_error.1 hrest with hrest | ⟨bs, -, hpure⟩
        · obtain ⟨before, c, after, rfl, hbefore, hc⟩ := ih.1 hrest
          exact ⟨a :: before, c, after, rfl, List.forall_mem_cons.2 ⟨⟨b, hb⟩, hbefore⟩, hc⟩
        · cases hpure
    · rintro ⟨before, c, after, hl, hbefore, hc⟩
      cases before with
      | nil =>
        obtain ⟨rfl, -⟩ := List.cons.inj hl
        exact .inl hc
      | cons d before =>
        obtain ⟨rfl, hrest⟩ := List.cons.inj hl
        obtain ⟨⟨b, hb⟩, hbefore⟩ := List.forall_mem_cons.1 hbefore
        exact .inr ⟨b, hb, bind_eq_error.2 (.inl (ih.2 ⟨before, c, after, hrest, hbefore, hc⟩))⟩

theorem exists_of_mapM_eq_error {f : α → Except ε β} {l : List α} {e : ε}
    (h : l.mapM f = .error e) : ∃ a ∈ l, f a = .error e := by
  obtain ⟨before, a, after, rfl, -, ha⟩ := mapM_eq_error.1 h
  exact ⟨a, by simp, ha⟩

theorem mapM_eq_some {f : α → Option β} {l : List α} {results : List β} :
    l.mapM f = some results ↔ l.map f = results.map some := by
  induction l generalizing results with
  | nil => cases results <;> simp
  | cons a rest ih =>
    rw [List.mapM_cons, Option.bind_eq_bind, Option.bind_eq_some_iff, List.map_cons]
    constructor
    · rintro ⟨b, hb, hrest⟩
      obtain ⟨bs, hbs, hpure⟩ := Option.bind_eq_some_iff.1 hrest
      cases hpure
      rw [hb, ih.1 hbs, List.map_cons]
    · intro h
      obtain ⟨b, bs, rfl, hb, hbs⟩ := List.map_eq_cons_iff.1 h.symm
      exact ⟨b, hb.symm, Option.bind_eq_some_iff.2 ⟨bs, ih.2 hbs.symm, rfl⟩⟩

/-! ## Failing alike -/

/-- Two results are the same errors. -/
def Alike (x : Except ε α) (y : Except ε β) : Prop := ∀ e, x = .error e ↔ y = .error e

namespace Alike

theorem refl (x : Except ε α) : Alike x x := fun _ => .rfl

theorem symm {x : Except ε α} {y : Except ε β} (h : Alike x y) : Alike y x := fun e => (h e).symm

theorem ok (a : α) (b : β) : Alike (.ok a : Except ε α) (.ok b : Except ε β) := by
  intro e
  constructor <;> rintro ⟨⟩

theorem error (e : ε) : Alike (.error e : Except ε α) (.error e : Except ε β) := by
  intro e'
  rw [Except.error.injEq, Except.error.injEq]

theorem map (f : α → β) (x : Except ε α) : Alike (x.map f) x := by
  intro e
  cases x <;> simp [Except.map]

theorem mapError {x : Except ε α} {y : Except ε β} (h : Alike x y) (wrap : ε → ε') :
    Alike (x.mapError wrap) (y.mapError wrap) := by
  intro e
  rw [mapError_eq_error, mapError_eq_error]
  exact exists_congr fun cause => and_congr_left fun _ => h cause

theorem bind {x : Except ε α} {y : Except ε β} {f : α → Except ε γ} {g : β → Except ε δ}
    (h : Alike x y) (hrest : ∀ a b, x = .ok a → y = .ok b → Alike (f a) (g b)) :
    Alike (x >>= f) (y >>= g) := by
  cases hx : x with
  | error e =>
    rw [(h e).1 hx]
    exact error e
  | ok a =>
    cases hy : y with
    | error e =>
      rw [(h e).2 hy] at hx
      cases hx
    | ok b => exact hrest a b hx hy

theorem mapM {f : α → Except ε β} {g : α → Except ε γ} (h : ∀ a, Alike (f a) (g a))
    (l : List α) : Alike (l.mapM f) (l.mapM g) := by
  induction l with
  | nil => exact ok [] []
  | cons a rest ih =>
    rw [List.mapM_cons, List.mapM_cons]
    exact bind (h a) fun _ _ _ _ => bind ih fun _ _ _ _ => ok _ _

theorem exists_ok {x : Except ε α} {y : Except ε β} (h : Alike x y) {a : α} (hx : x = .ok a) :
    ∃ b, y = .ok b := by
  cases hy : y with
  | error e =>
    rw [(h e).2 hy] at hx
    cases hx
  | ok b => exact ⟨b, rfl⟩

theorem isOk_eq {x : Except ε α} {y : Except ε β} (h : Alike x y) : x.isOk = y.isOk := by
  cases x with
  | error e =>
    rw [(h e).1 rfl]
    rfl
  | ok a =>
    obtain ⟨b, rfl⟩ := h.exists_ok rfl
    rfl

end Alike

/-! ## Steps that change a state as well -/

section

variable {σ : Type} {x : ExceptT ε (StateM σ) α} {f : α → ExceptT ε (StateM σ) β} {s mid : σ}

theorem run_bind_of_ok {a : α} (h : x.run s = (.ok a, mid)) : (x >>= f).run s = (f a).run mid := by
  change (ExceptT.bindCont f (x.run s).1).run (x.run s).2 = _
  rw [h]
  rfl

theorem run_bind_of_error {e : ε} (h : x.run s = (.error e, mid)) :
    (x >>= f).run s = (.error e, mid) := by
  change (ExceptT.bindCont f (x.run s).1).run (x.run s).2 = _
  rw [h]
  rfl

end

end BenchCluster.Fallible
