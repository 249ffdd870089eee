import BenchCluster.Remote.Executor
import BenchCluster.Proofs.Retry.Exact
import BenchCluster.Proofs.Thread.Apart

/-! # Attempts on several hosts

Each host's attempts are those of an operation that is retried, whatever happens on the others.
-/

namespace BenchCluster

namespace RemoteExecutor

variable {ω α κ τ : Type} (x : RemoteExecutor ω) (options : ExecOptions)
  (once : Host → Action ω (Timed (Except AttemptError α)))

/-- What retrying an attempt on one host amounts to. -/
theorem attempts_endsBy {h : Host}
    {calls : List (Thread.Turn (Invocation ω) (Timed (Except AttemptError α)))}
    {r : HostRetried α} (hends : (x.attempts options once h).EndsBy calls r) :
    Retries options.retry.maxElapsed AttemptError.isTransient 0 .zero
        (options.retry.delaySequence (x.draws h)) r.log r.result ∧
      calls.map Thread.Turn.answer = r.log.map TimedCall.answer ∧ ∀ c ∈ calls, c.act = once h := by
  obtain ⟨log, hlog, hretries, hanswers, hacts⟩ := retries_of_endsBy hends
  rw [List.nil_append] at hlog
  subst hlog
  refine ⟨hretries, hanswers, fun c hc => ?_⟩
  have hact := List.mem_map_of_mem (f := Thread.Turn.act) hc
  rw [hacts] at hact
  obtain ⟨_, -, hact⟩ := List.mem_map.1 hact
  exact hact.symm

/-- The calls of the attempts on several hosts are made one after the other, and each host has a
share of them, in their order. -/
theorem onHosts_shares (hosts : List Host) (inv : Invocation ω) :
    ∃ calls ends, Thread.Turn.Follow inv calls (x.onHosts options once hosts inv).2 ∧
      ends.map Prod.snd = (x.onHosts options once hosts inv).1 ∧
      List.Forall₂ (fun e h => (x.attempts options once h).EndsBy e.1 e.2) ends hosts ∧
      calls.Perm (ends.map Prod.fst).flatten ∧ ∀ e ∈ ends, e.1.Sublist calls := by
  obtain ⟨calls, ends, hfollow, hresults, hends, hperm, hsub⟩ :=
    (Thread.takeTurns_runAll (hosts.length * options.retry.attemptCount)
      (hosts.map (x.attempts options once)) inv).shares
  exact ⟨calls, ends, hfollow, hresults, List.forall₂_map_right_iff.1 hends, hperm, hsub⟩

/-- There is one operation for each host, retried as exactly as the policy says. -/
structure EachRetried (hosts : List Host) (tried : List (HostRetried α)) : Prop where
  length_eq : tried.length = hosts.length
  exact : ∀ r ∈ hosts.zip tried, r.2.Exact options.retry
    (options.retry.delaySequence (x.draws r.1)) AttemptError.isTransient

theorem eachRetried_onHosts (hosts : List Host) (inv : Invocation ω) :
    x.EachRetried options hosts (x.onHosts options once hosts inv).1 := by
  obtain ⟨calls, ends, -, hresults, hends, -⟩ := x.onHosts_shares options once hosts inv
  rw [← hresults]
  refine ⟨by rw [List.length_map, hends.length_eq], fun r hr => ?_⟩
  rw [List.zip_map_right, List.mem_map] at hr
  obtain ⟨⟨h, e⟩, hmem, rfl⟩ := hr
  have hend := List.forall₂_zip hends.flip hmem
  exact (x.attempts_endsBy options once hend).1.exact
    (options.retry.length_delaySequence_add_one _)

/-! ## Hosts apart -/

theorem allWithin_attempts (hosts : List Host) :
    Thread.AllWithin (hosts.length * options.retry.attemptCount)
      (hosts.map (x.attempts options once)) := by
  have hall : ∀ t ∈ hosts.map (x.attempts options once), t.Within options.retry.attemptCount := by
    intro t ht
    obtain ⟨h, -, rfl⟩ := List.mem_map.1 ht
    rw [← options.retry.length_delaySequence_add_one (x.draws h)]
    exact within_retryAfter _ _ _ _ _ _
  simpa using Thread.allWithin_of_forall hall

/-- Attempts on the hosts of one key are the same without all other hosts, if the other hosts have
nothing to do with the part of the world that these see. -/
theorem onHosts_filter [DecidableEq κ] {key : Host → κ} {own : κ} {view : Invocation ω → τ}
    (hown : ∀ h, key h = own → Thread.Confined view (once h))
    (hforeign : ∀ h, key h ≠ own → Thread.Foreign view (once h)) (hosts : List Host)
    {inv inv' : Invocation ω} (hview : view inv' = view inv) :
    let all := x.onHosts options once hosts inv
    let some := x.onHosts options once (hosts.filter (key · = own)) inv'
    ((hosts.zip all.1).filter (key ·.1 = own)).map Prod.snd = some.1 ∧ view some.2 = view all.2 := by
  let threads := hosts.map fun h => (key h, x.attempts options once h)
  have hall : threads.map Prod.snd = hosts.map (x.attempts options once) := by
    simp [threads, Function.comp_def]
  have hsome : (threads.filter (·.1 = own)).map Prod.snd =
      (hosts.filter (key · = own)).map (x.attempts options once) := by
    simp [threads, List.filter_map, Function.comp_def]
  have hkeys : threads.map Prod.fst = hosts.map key := by
    simp [threads, Function.comp_def]
  have hcalls := x.allWithin_attempts options once hosts
  have hfewer := x.allWithin_attempts options once (hosts.filter (key · = own))
  have halone := Thread.runAll_filter (hall ▸ hcalls) (hsome ▸ hfewer)
    (List.forall_mem_map.2 fun h _ hh => all_retryAfter (fun _ => hown h hh) _ _ _)
    (List.forall_mem_map.2 fun h _ hh => all_retryAfter (fun _ => hforeign h hh) _ _ _) hview
  rw [hall, hsome, hkeys] at halone
  refine ⟨Eq.trans ?_ halone.1, halone.2⟩
  rw [List.zip_map_left, List.filter_map, List.map_map]
  rfl

end RemoteExecutor

end BenchCluster
