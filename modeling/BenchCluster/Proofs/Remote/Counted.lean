import BenchCluster.Proofs.Remote.Reports

/-! # Failed commands are counted up to the first error

A command runs on all hosts before its results are gone through, but going through them ends at the
first host that fails the call. Commands that have failed on hosts behind it are not counted.
-/

namespace BenchCluster

theorem Thread.Turn.Follow.view_eq {σ β τ : Type} {view : σ → τ} {s last : σ}
    {calls : List (Thread.Turn σ β)} (h : Follow s calls last)
    (hcalls : ∀ c ∈ calls, Thread.Foreign view c.act) : view last = view s := by
  induction calls generalizing s with
  | nil => exact congrArg view h
  | cons c rest ih =>
    obtain ⟨rfl, hrest⟩ := h
    obtain ⟨hc, hcalls⟩ := List.forall_mem_cons.1 hcalls
    exact (ih hrest hcalls).trans (hc c.state)

namespace RemoteExecutor

variable {ω α τ : Type} (x : RemoteExecutor ω) (options : ExecOptions)

theorem view_onHosts (view : Invocation ω → τ)
    {once : Host → Action ω (Timed (Except AttemptError α))}
    (honce : ∀ h, Thread.Foreign view (once h)) (hosts : List Host) (inv : Invocation ω) :
    view (x.onHosts options once hosts inv).2 = view inv := by
  obtain ⟨calls, ends, hfollow, -, hends, hperm, -⟩ := x.onHosts_shares options once hosts inv
  refine hfollow.view_eq fun c hc => ?_
  obtain ⟨share, hshare, hcshare⟩ := List.mem_flatten.1 (hperm.subset hc)
  obtain ⟨e, he, rfl⟩ := List.mem_map.1 hshare
  obtain ⟨h, -, hend⟩ := Thread.exists_of_forall₂_of_mem hends he
  rw [(x.attempts_endsBy options once hend).2.2 c hcshare]
  exact honce h

theorem remoteFailures_tryCommand (hosts : List Host) (command : RemoteCommand)
    (inv : Invocation ω) :
    (x.tryCommand options hosts command inv).2.metrics.remoteFailures =
      inv.metrics.remoteFailures :=
  x.view_onHosts options (fun inv => inv.metrics.remoteFailures) (fun _ _ => rfl) hosts inv

def commandFailed (r : HostRetried CommandOutput) : Bool :=
  match r.result with
  | .ok o => !o.success
  | .error _ => false

/-- The call fails because of a host: its attempts are used up, or its command has failed and that
matters. -/
def failsCall (ignoreErrors : Bool) (r : HostRetried CommandOutput) : Bool :=
  match r.result with
  | .ok o => !o.success && !ignoreErrors
  | .error _ => true

/-- The number of hosts up to the first one that fails the call. -/
def hostsToError (ignoreErrors : Bool) (tried : List (Host × HostRetried CommandOutput)) : Nat :=
  tried.findIdx (fun r => failsCall ignoreErrors r.2) + 1

theorem take_hostsToError_cons {ignoreErrors : Bool} (t : Host × HostRetried CommandOutput)
    (rest : List (Host × HostRetried CommandOutput)) :
    (t :: rest).take (hostsToError ignoreErrors (t :: rest)) =
      t :: if failsCall ignoreErrors t.2 then [] else
        rest.take (hostsToError ignoreErrors rest) := by
  rw [hostsToError, List.findIdx_cons, List.take_succ_cons]
  cases failsCall ignoreErrors t.2 <;> rfl

/-- Going through the results counts the failed commands up to the first host that fails the
call. -/
theorem remoteFailures_collect (tried : List (Host × HostRetried CommandOutput))
    (inv : Invocation ω) :
    let after := (collect options.ignoreErrors (tried.map fun (h, r) =>
      (h, r.result.mapError (AttemptError.toRemote h options.timeout))) inv).2
    after.metrics.remoteFailures = inv.metrics.remoteFailures +
      (tried.take (hostsToError options.ignoreErrors tried)).countP (commandFailed ·.2) := by
  induction tried generalizing inv with
  | nil => rfl
  | cons t rest ih =>
    obtain ⟨h, r⟩ := t
    rw [List.map_cons, take_hostsToError_cons, List.countP_cons, commandFailed, failsCall]
    dsimp only
    cases hresult : r.result with
    | error e => rfl
    | ok o =>
      have hhead : (Except.ok o : Except (RetryError AttemptError) CommandOutput).mapError
          (AttemptError.toRemote h options.timeout) = .ok o := rfl
      have hcounted : (counted o inv).metrics.remoteFailures =
          inv.metrics.remoteFailures + if (!o.success) = true then 1 else 0 := by
        rw [counted]
        cases o.success <;> rfl
      rw [hhead, collect_ok]
      by_cases hfails : (!o.success && !options.ignoreErrors) = true
      · simp only [if_pos hfails, hcounted, List.countP_nil, Nat.zero_add]
      · simp only [if_neg hfails, ih, hcounted]
        omega

/-- All failed commands are counted exactly if none has failed behind the first host that fails the
call. -/
theorem failures_counted_iff (x : RemoteExecutor ω) (options : ExecOptions) {hosts : List Host}
    (hhosts : hosts ≠ []) (command : RemoteCommand) (inv : Invocation ω) :
    let tried := hosts.zip (x.tryCommand options hosts command inv).1
    let seen := hostsToError options.ignoreErrors tried
    let before := inv.metrics.remoteFailures
    let after := (x.run options hosts command inv).2.metrics.remoteFailures
    tried.map Prod.fst = hosts ∧
      after = before + (tried.take seen).countP (commandFailed ·.2) ∧
      (after = before + tried.countP (commandFailed ·.2) ↔
        ∀ r ∈ tried.drop seen, commandFailed r.2 = false) := by
  intro tried seen before after
  have hafter : after = before + (tried.take seen).countP (commandFailed ·.2) := by
    have hcollect := remoteFailures_collect options tried
      (x.tryCommand options hosts command inv).2
    rw [x.remoteFailures_tryCommand options hosts command inv] at hcollect
    rw [← hcollect]
    exact congrArg (·.2.metrics.remoteFailures) (x.run_of_ne_nil options hhosts command inv)
  refine ⟨?_, hafter, ?_⟩
  · have hlength := (x.eachRetried_onHosts options
      (fun h => x.execOnce options (command.render h options.ignoreErrors) h) hosts inv).length_eq
    exact List.map_fst_zip hlength.ge
  · have hsplit : tried.countP (commandFailed ·.2) =
        (tried.take seen).countP (commandFailed ·.2) +
          (tried.drop seen).countP (commandFailed ·.2) := by
      rw [← List.countP_append, List.take_append_drop]
    have hnone : (tried.drop seen).countP (commandFailed ·.2) = 0 ↔
        ∀ r ∈ tried.drop seen, commandFailed r.2 = false := by
      simp [List.countP_eq_zero]
    rw [hafter, hsplit, ← hnone]
    omega

/-- A command that fails behind a host that does not answer is not counted. -/
theorem failures_counted_mixed :
    let start : Invocation (String → Nat) := { outside := fun _ => 0 }
    let tried := mixedHosts.zip (mixed.tryCommand mixedOptions mixedHosts (.line "uptime") start).1
    let after := (mixed.run mixedOptions mixedHosts (.line "uptime") start).2
    mixedHosts ≠ [] ∧ hostsToError mixedOptions.ignoreErrors tried = 2 ∧
      tried.countP (commandFailed ·.2) = 1 ∧ after.metrics.remoteFailures = 0 ∧
      ¬ after.metrics.remoteFailures = 0 + tried.countP (commandFailed ·.2) := by
  have hhosts : mixedHosts ≠ [] := by decide
  obtain ⟨-, hafter, hiff⟩ :=
    failures_counted_iff mixed mixedOptions hhosts (.line "uptime") { outside := fun _ => 0 }
  refine ⟨hhosts, by decide +kernel, by decide +kernel, by decide +kernel, ?_⟩
  rw [hiff]
  decide +kernel

end RemoteExecutor

end BenchCluster
