import BenchCluster.Proofs.Thread.InTime

/-! # Threads that have nothing to do with each other

There is a part of the state that the calls of one key depend on and change, and that no other call
changes. What the threads of this key do is then the same whether or not there are others.
-/

namespace BenchCluster

namespace Thread

variable {κ σ τ α β : Type}

/-- What the computation answers and what it makes of a part of the state depends on this part
only. -/
def Confined (view : σ → τ) (act : StateM σ β) : Prop :=
  ∀ s s', view s' = view s → (act s').1 = (act s).1 ∧ view (act s').2 = view (act s).2

/-- The computation leaves a part of the state as it is. -/
def Foreign (view : σ → τ) (act : StateM σ β) : Prop := ∀ s, view (act s).2 = view s

section

variable [DecidableEq κ] {view : σ → τ} {own : κ}

/-- The threads of one key do the same if there are no others. -/
theorem InTime.filter {threads : List (κ × Thread (StateM σ) β α)} {s last : σ}
    {results : List (κ × α)} (h : InTime threads s results last)
    (hown : ∀ t ∈ threads, t.1 = own → t.2.All (Confined view))
    (hforeign : ∀ t ∈ threads, t.1 ≠ own → t.2.All (Foreign view)) {s' : σ}
    (hview : view s' = view s) :
    ∃ last', InTime (threads.filter (·.1 = own)) s' (results.filter (·.1 = own)) last' ∧
      view last' = view last := by
  induction h generalizing s' with
  | ended results s =>
    rw [List.filter_map]
    exact ⟨s', .ended _ s', hview⟩
  | @turn before after key begins act next s last results first soonest rest ih =>
    have hmem : (key, .call begins act next) ∈ before ++ (key, .call begins act next) :: after := by
      simp
    by_cases hkey : key = own
    · obtain ⟨hconfined, hnext⟩ := hown _ hmem hkey
      obtain ⟨hanswer, hafter⟩ := hconfined s s' hview
      obtain ⟨last', hrest, hlast⟩ := ih (forall_mem_replaced hown fun _ => hnext _)
        (forall_mem_replaced hforeign fun hne => absurd hkey hne) hafter
      refine ⟨last', ?_, hlast⟩
      rw [List.filter_append, List.filter_cons_of_pos (by simpa using hkey)] at hrest ⊢
      refine .turn (fun t ht => first t (List.mem_filter.1 ht).1)
        (fun t ht => soonest t (List.mem_filter.1 ht).1) ?_
      rw [hanswer]
      exact hrest
    · -- The call is not made without the others, but it does not change what the key sees.
      obtain ⟨hleft, hnext⟩ := hforeign _ hmem hkey
      obtain ⟨last', hrest, hlast⟩ := ih (forall_mem_replaced hown fun h => absurd h hkey)
        (forall_mem_replaced hforeign fun _ => hnext _) (hview.trans (hleft s).symm)
      rw [List.filter_append, List.filter_cons_of_neg (by simpa using hkey)] at hrest ⊢
      exact ⟨last', hrest, hlast⟩

/-- Threads of one key that run together with others have the same results as on their own, and
leave their part of the state alike. -/
theorem runAll_filter {threads : List (κ × Thread (StateM σ) β α)} {calls fewer : Nat}
    (hcalls : AllWithin calls (threads.map Prod.snd))
    (hfewer : AllWithin fewer ((threads.filter (·.1 = own)).map Prod.snd))
    (hown : ∀ t ∈ threads, t.1 = own → t.2.All (Confined view))
    (hforeign : ∀ t ∈ threads, t.1 ≠ own → t.2.All (Foreign view)) {s s' : σ}
    (hview : view s' = view s) :
    let all := runAll calls (threads.map Prod.snd) s
    let some := runAll fewer ((threads.filter (·.1 = own)).map Prod.snd) s'
    (((threads.map Prod.fst).zip all.1).filter (·.1 = own)).map Prod.snd = some.1 ∧
      view some.2 = view all.2 := by
  obtain ⟨results, last, hresults⟩ := exists_inTime hcalls s
  obtain ⟨last', hfiltered, hlast⟩ := hresults.filter hown hforeign hview
  simp only [hresults.runAll_eq hcalls, hfiltered.runAll_eq hfewer]
  refine ⟨?_, hlast⟩
  rw [← hresults.keys, ← List.zip_of_prod rfl rfl]

end

end Thread

end BenchCluster
