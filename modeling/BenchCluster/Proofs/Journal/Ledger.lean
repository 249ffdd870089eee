import Mathlib.Data.List.Induction
import Mathlib.Data.List.Nodup
import BenchCluster.Proofs.Journal.Pool

/-! # What there is according to a journal

A ledger reads off a journal what has been gained and not been lost since: the machines that have
been launched and not terminated, and the volumes that have been created and not destroyed.
-/

namespace BenchCluster

variable {ρ α β κ : Type} [DecidableEq α]

/-- What a call has gained, and what it has lost. -/
structure Ledger (α : Type) where
  gained : OutsideCall → Option α
  lost : OutsideCall → Option α

namespace Ledger

def enter (l : Ledger α) (live : List α) (e : JournalEntry) : List α :=
  match l.gained e.call with
  | some a => live ++ [a]
  | none =>
    match l.lost e.call with
    | some a => live.filter fun b => b ≠ a
    | none => live

def live (l : Ledger α) (journal : List JournalEntry) : List α := journal.foldl l.enter []

/-- The ids of the machines that a launch has returned and that have not been terminated with
success since. -/
def machines : Ledger String :=
  { gained := fun
      | .launch _ _ (.ok (some m)) => some m.id
      | _ => none
    lost := fun
      | .terminate _ m (.ok _) => some m.id
      | _ => none }

/-- The volumes that have been created and not been destroyed with success since. -/
def volumes : Ledger Volume :=
  { gained := fun
      | .createVolume _ _ (.ok v) => some v
      | _ => none
    lost := fun
      | .destroyVolume _ v (.ok _) => some v
      | _ => none }

theorem machines_gained {c : OutsideCall} {id : String} (h : machines.gained c = some id) :
    ∃ env r m, c = .launch env r (.ok (some m)) ∧ m.id = id := by
  simp only [machines] at h
  split at h
  · cases h
    exact ⟨_, _, _, rfl, rfl⟩
  · cases h

theorem volumes_gained {c : OutsideCall} {v : Volume} (h : volumes.gained c = some v) :
    ∃ env r, c = .createVolume env r (.ok v) := by
  simp only [volumes] at h
  split at h
  · cases h
    exact ⟨_, _, rfl⟩
  · cases h

variable (l : Ledger α)

theorem live_append (before after : List JournalEntry) :
    l.live (before ++ after) = after.foldl l.enter (l.live before) :=
  List.foldl_append

theorem foldl_of_idle {entries : List JournalEntry}
    (h : ∀ e ∈ entries, l.gained e.call = none ∧ l.lost e.call = none) (live : List α) :
    entries.foldl l.enter live = live := by
  induction entries with
  | nil => rfl
  | cons e rest ih =>
    obtain ⟨hgained, hlost⟩ := h e List.mem_cons_self
    rw [List.foldl_cons, enter, hgained, hlost]
    exact ih fun x hx => h x (List.mem_cons_of_mem _ hx)

theorem idle_of_isInert {c : OutsideCall} (h : c.isInert = true) :
    (machines.gained c = none ∧ machines.lost c = none) ∧
      volumes.gained c = none ∧ volumes.lost c = none := by
  cases c <;> first | exact ⟨⟨rfl, rfl⟩, rfl, rfl⟩ | cases h

/-- Attempts that may only gain something add it in their order. -/
theorem foldl_gains (e : Errand ρ β) (f : Attempt ρ β → Option α)
    (hanswer : ∀ x r, x.answer = some r →
      l.gained (e.call x.environment x.request r) = f x ∧
        l.lost (e.call x.environment x.request r) = none)
    (hnone : ∀ x, x.answer = none → f x = none) (attempts : List (Attempt ρ β)) (live : List α) :
    (attempts.flatMap e.entries).foldl l.enter live = live ++ attempts.filterMap f := by
  induction attempts generalizing live with
  | nil => simp
  | cons x rest ih =>
    rw [List.flatMap_cons, List.foldl_append, ih, Errand.entries]
    cases hx : x.answer with
    | none => simp [hnone x hx]
    | some r =>
      obtain ⟨hgained, hlost⟩ := hanswer x r hx
      cases hf : f x with
      | none => simp [enter, hgained, hlost, hf]
      | some a => simp [enter, hgained, hf]

/-- Attempts that may only lose something leave the rest. -/
theorem foldl_losses (e : Errand ρ β) (f : Attempt ρ β → Option α)
    (hanswer : ∀ x r, x.answer = some r →
      l.gained (e.call x.environment x.request r) = none ∧
        l.lost (e.call x.environment x.request r) = f x)
    (hnone : ∀ x, x.answer = none → f x = none) (attempts : List (Attempt ρ β)) (live : List α) :
    (attempts.flatMap e.entries).foldl l.enter live =
      live.filter fun a => a ∉ attempts.filterMap f := by
  induction attempts generalizing live with
  | nil => simp
  | cons x rest ih =>
    rw [List.flatMap_cons, List.foldl_append, ih, Errand.entries]
    cases hx : x.answer with
    | none => simp [hnone x hx]
    | some r =>
      obtain ⟨hgained, hlost⟩ := hanswer x r hx
      cases hf : f x with
      | none => simp [enter, hgained, hlost, hf]
      | some a =>
        simp only [List.foldl_cons, List.foldl_nil, enter, hgained, hlost, hf,
          List.filter_filter, List.filterMap_cons, List.mem_cons, not_or]
        refine List.filter_congr fun b _ => ?_
        simp [Bool.and_comm]

/-- If what is gained has always been new, nothing is there twice. -/
theorem nodup_live (key : α → κ) {journal : List JournalEntry}
    (h : ∀ before e, before ++ [e] <+: journal → ∀ a, l.gained e.call = some a →
      key a ∉ (l.live before).map key) : ((l.live journal).map key).Nodup := by
  induction journal using List.reverseRecOn with
  | nil => exact List.nodup_nil
  | append_singleton before e ih =>
    have hbefore := ih fun b x hx => h b x (hx.trans (List.prefix_append _ _))
    rw [l.live_append, List.foldl_cons, List.foldl_nil, enter]
    cases hgained : l.gained e.call with
    | some a =>
      have hnew := h before e (List.prefix_refl _) a hgained
      rw [List.map_append, List.nodup_append]
      refine ⟨hbefore, List.nodup_singleton _, fun b hb c hc => ?_⟩
      rw [List.map_singleton, List.mem_singleton] at hc
      rw [hc]
      exact fun heq => hnew (heq ▸ hb)
    | none =>
      cases hlost : l.lost e.call with
      | some a => exact hbefore.sublist (List.filter_sublist.map key)
      | none => exact hbefore

end Ledger

end BenchCluster
