import Mathlib.Data.Set.List
import BenchCluster.Proofs.Thread.Turns

/-! # Threads in order of time

Threads that may make all their calls take turns in the order of time. Told as a relation, this does
not mention how many calls there may be, and an induction on it goes through the calls as they are
made. Each thread bears a key, by which it is known later.
-/

namespace BenchCluster

namespace Thread

variable {κ σ σ' α β : Type}

/-- Threads that take turns in order of time, with the results of all of them and the state after
them. -/
inductive InTime : List (κ × Thread (StateM σ) β α) → σ → List (κ × α) → σ → Prop
  | ended (results : List (κ × α)) (s : σ) :
      InTime (results.map fun r => (r.1, .done r.2)) s results s
  | turn {before after : List (κ × Thread (StateM σ) β α)} {key : κ} {begins : Duration}
      {act : StateM σ β} {next : β → Thread (StateM σ) β α} {s last : σ} {results : List (κ × α)}
      (first : ∀ t ∈ before, t.2.After begins) (soonest : ∀ t ∈ after, t.2.NotBefore begins)
      (rest : InTime (before ++ (key, next (act s).1) :: after) (act s).2 results last) :
      InTime (before ++ (key, .call begins act next) :: after) s results last

theorem InTime.keys {threads : List (κ × Thread (StateM σ) β α)} {s last : σ}
    {results : List (κ × α)} (h : InTime threads s results last) :
    results.map Prod.fst = threads.map Prod.fst := by
  induction h with
  | ended results s => simp [Function.comp_def]
  | turn first soonest rest ih => simpa using ih

/-! ## Running threads -/

theorem runAll_done (calls : Nat) (results : List α) (s : σ) :
    runAll calls (results.map (.done : α → Thread (StateM σ) β α)) s = (results, s) := by
  have hmapM : (results.map (.done : α → Thread (StateM σ) β α)).mapM run s = (results, s) := by
    rw [List.mapM_map]
    have hpure := congrFun (List.mapM_pure (m := StateM σ) (l := results) (f := id)) s
    rw [List.map_id] at hpure
    exact hpure
  have hdue : due? (results.map (.done : α → Thread (StateM σ) β α)) = none := by
    simp [due?_eq_none_iff]
  cases calls with
  | zero => exact hmapM
  | succ calls =>
    rw [runAll, hdue]
    exact hmapM

/-- Threads that may make all their calls take turns in order of time. -/
theorem InTime.runAll_eq {threads : List (κ × Thread (StateM σ) β α)} {s last : σ}
    {results : List (κ × α)} (h : InTime threads s results last) {calls : Nat}
    (hcalls : AllWithin calls (threads.map Prod.snd)) :
    runAll calls (threads.map Prod.snd) s = (results.map Prod.snd, last) := by
  induction h generalizing calls with
  | ended results s =>
    have hdone : (results.map fun r => (r.1, (.done r.2 : Thread (StateM σ) β α))).map Prod.snd =
        (results.map Prod.snd).map .done := by simp
    rw [hdone]
    exact runAll_done calls (results.map Prod.snd) s
  | @turn before after key begins act next s last results first soonest rest ih =>
    -- The turn is the one that is due, and takes one from the number of calls.
    rw [List.map_append, List.map_cons] at hcalls ⊢
    obtain ⟨fewer, rfl, hfewer⟩ := hcalls.turn
    have hdue : due? (before.map Prod.snd ++ .call begins act next :: after.map Prod.snd) =
        some ⟨before.map Prod.snd, begins, act, next, after.map Prod.snd⟩ :=
      due?_append (List.forall_mem_map.2 first) (List.forall_mem_map.2 soonest)
    have hmore : AllWithin fewer
        ((before ++ (key, next (act s).1) :: after).map Prod.snd) := by
      simpa using hfewer (act s).1
    have hrest := ih hmore
    rw [List.map_append, List.map_cons] at hrest
    rw [runAll, hdue]
    exact hrest

theorem exists_inTime {calls : Nat} {threads : List (κ × Thread (StateM σ) β α)}
    (h : AllWithin calls (threads.map Prod.snd)) (s : σ) :
    ∃ results last, InTime threads s results last := by
  induction calls using Nat.strongRecOn generalizing threads s with
  | ind calls ih =>
    cases hdue : due? (threads.map Prod.snd) with
    | none =>
      have hdone : threads ∈ Set.range (List.map fun r : κ × α =>
          (r.1, (.done r.2 : Thread (StateM σ) β α))) := by
        rw [Set.range_list_map]
        intro t ht
        obtain ⟨result, hresult⟩ := due?_eq_none_iff.1 hdue t.2 (List.mem_map_of_mem ht)
        exact ⟨(t.1, result), Prod.ext rfl hresult.symm⟩
      obtain ⟨results, rfl⟩ := hdone
      exact ⟨results, s, .ended results s⟩
    | some d =>
      obtain ⟨hthreads, hfirst, hsoonest⟩ := due?_spec hdue
      obtain ⟨before, rest, rfl, hbefore, hrest⟩ := List.map_eq_append_iff.1 hthreads
      obtain ⟨⟨key, t⟩, after, rfl, rfl, hafter⟩ := List.map_eq_cons_iff.1 hrest
      rw [← hbefore] at hfirst
      rw [← hafter] at hsoonest
      rw [List.map_append, List.map_cons] at h
      -- The turn uses up a call, and what is left may make fewer.
      obtain ⟨fewer, rfl, hfewer⟩ := h.turn
      have hmore := hfewer (d.act s).1
      rw [← List.map_cons (f := Prod.snd) (a := (key, d.next (d.act s).1)), ← List.map_append] at hmore
      obtain ⟨results, last, hresults⟩ := ih fewer (Nat.lt_succ_self fewer) hmore (d.act s).2
      exact ⟨results, last, .turn (List.forall_mem_map.1 hfirst) (List.forall_mem_map.1 hsoonest)
        hresults⟩

/-! ## States with more to them -/

/-- Threads over two kinds of state, the calls of which do the same if the former state is seen as one
of the latter. -/
inductive Alike (forget : σ → σ') : Thread (StateM σ) β α → Thread (StateM σ') β α → Prop
  | done (result : α) : Alike forget (.done result) (.done result)
  | call {begins : Duration} {act : StateM σ β} {act' : StateM σ' β}
      {next : β → Thread (StateM σ) β α} {next' : β → Thread (StateM σ') β α}
      (same : ∀ s, act' (forget s) = ((act s).1, forget (act s).2))
      (rest : ∀ answer, Alike forget (next answer) (next' answer)) :
      Alike forget (.call begins act next) (.call begins act' next')

namespace Alike

variable {forget : σ → σ'} {t : Thread (StateM σ) β α} {t' : Thread (StateM σ') β α}
  {time : Duration}

theorem after (h : Alike forget t t') (ht : t.After time) : t'.After time := by
  cases h with
  | done result => trivial
  | call same rest => exact ht

theorem notBefore (h : Alike forget t t') (ht : t.NotBefore time) : t'.NotBefore time := by
  cases h with
  | done result => trivial
  | call same rest => exact ht

end Alike

theorem InTime.alike {forget : σ → σ'} {threads : List (κ × Thread (StateM σ) β α)} {s last : σ}
    {results : List (κ × α)} (h : InTime threads s results last)
    {threads' : List (κ × Thread (StateM σ') β α)}
    (halike : List.Forall₂ (fun t' t => t'.1 = t.1 ∧ Alike forget t.2 t'.2) threads' threads) :
    InTime threads' (forget s) results (forget last) := by
  induction h generalizing threads' with
  | ended results s =>
    have hdone : threads' = results.map fun r => (r.1, .done r.2) := by
      rw [List.forall₂_map_right_iff] at halike
      induction halike with
      | nil => rfl
      | @cons t r _ _ hr _ ih =>
        obtain ⟨key, t⟩ := t
        obtain ⟨rfl, ⟨⟩⟩ := hr
        exact congrArg (_ :: ·) ih
    rw [hdone]
    exact .ended results (forget s)
  | @turn before after key begins act next s last results first soonest rest ih =>
    obtain ⟨before', ⟨key', t'⟩, after', rfl, hbefore, ⟨rfl, ht⟩, hafter⟩ :=
      exists_of_forall₂_append_cons halike
    cases ht with
    | @call _ _ act' _ next' same hnext =>
      have hmiddle : List.Forall₂ (fun t' t => t'.1 = t.1 ∧ Alike forget t.2 t'.2)
          (before' ++ (key', next' (act s).1) :: after') (before ++ (key', next (act s).1) :: after) :=
        List.rel_append hbefore (.cons ⟨rfl, hnext (act s).1⟩ hafter)
      have hrest := ih hmiddle
      refine .turn (fun t ht => ?_) (fun t ht => ?_) ?_
      · obtain ⟨t', ht', -, halike⟩ := exists_of_forall₂_of_mem hbefore ht
        exact halike.after (first t' ht')
      · obtain ⟨t', ht', -, halike⟩ := exists_of_forall₂_of_mem hafter ht
        exact halike.notBefore (soonest t' ht')
      · rw [same s]
        exact hrest

/-- What there is more to a state makes no difference to threads that do not see it. -/
theorem runAll_alike {forget : σ → σ'} {threads : List (Thread (StateM σ) β α)}
    {threads' : List (Thread (StateM σ') β α)} {calls : Nat}
    (h : List.Forall₂ (fun t' t => Alike forget t t') threads' threads)
    (hcalls : AllWithin calls threads) (hcalls' : AllWithin calls threads') (s : σ) :
    runAll calls threads' (forget s) =
      ((runAll calls threads s).1, forget (runAll calls threads s).2) := by
  have hkeys : (threads.map fun t => ((), t)).map Prod.snd = threads := by
    simp [Function.comp_def]
  have hkeys' : (threads'.map fun t => ((), t)).map Prod.snd = threads' := by
    simp [Function.comp_def]
  rw [← hkeys] at hcalls
  rw [← hkeys'] at hcalls'
  obtain ⟨results, last, hresults⟩ := exists_inTime hcalls s
  have hforgotten : InTime (threads'.map fun t => ((), t)) (forget s) results (forget last) := by
    refine hresults.alike ?_
    rw [List.forall₂_map_left_iff, List.forall₂_map_right_iff]
    exact h.imp fun _ _ h => ⟨rfl, h⟩
  have hrun := hresults.runAll_eq hcalls
  have hrun' := hforgotten.runAll_eq hcalls'
  rw [hkeys] at hrun
  rw [hkeys'] at hrun'
  rw [hrun, hrun']

end Thread

end BenchCluster
