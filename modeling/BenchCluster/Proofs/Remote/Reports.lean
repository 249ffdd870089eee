import BenchCluster.Proofs.Fallible
import BenchCluster.Proofs.Remote.Attempts

/-! # What is reported of several hosts

A call on hosts is answered from the attempts on each of them, in the order of the hosts and not in
that of time, and hosts that have nothing to do with each other do not notice each other.
-/

namespace BenchCluster

/-- Hosts of different keys have nothing to do with each other: there is a part of the world for each
key that calls on its hosts depend on and change, and that no other call changes. -/
structure Transport.Apart {ω κ τ : Type} (t : Transport ω) (key : Host → κ) (view : κ → ω → τ) :
    Prop where
  exec_own : ∀ h script elevated limit,
    Thread.Confined (view (key h)) (t.exec h script elevated limit)
  exec_other : ∀ h k script elevated limit, key h ≠ k →
    Thread.Foreign (view k) (t.exec h script elevated limit)
  copy_own : ∀ h source target limit,
    Thread.Confined (view (key h)) (t.copy h source target limit)
  copy_other : ∀ h k source target limit, key h ≠ k →
    Thread.Foreign (view k) (t.copy h source target limit)

namespace RemoteExecutor

variable {ω α κ τ : Type}

/-! ## Answers -/

/-- The attempts on a host are used up, which fails the call with an error. -/
inductive GivesUp (options : ExecOptions) (h : Host) (r : HostRetried α) : RemoteError → Prop
  | timedOut {e : RetryError AttemptError} (result : r.result = .error e)
      (last : e.inner = .timedOut) :
      GivesUp options h r (.timedOut h.toText options.timeout e.attempts)
  | unreachable {e : RetryError AttemptError} {source : TransportError}
      (result : r.result = .error e) (last : e.inner = .transport source) :
      GivesUp options h r (.unreachable h.toText source)

/-- A host does not fail a command: there is an output, and its exit status is zero or does not
matter. -/
def Passes (options : ExecOptions) (r : HostRetried CommandOutput) : Prop :=
  ∃ o, r.result = .ok o ∧ (options.ignoreErrors = true ∨ o.exitStatus = some 0)

def Fails (options : ExecOptions) (h : Host) (r : HostRetried CommandOutput) (e : RemoteError) :
    Prop :=
  GivesUp options h r e ∨ ∃ o, r.result = .ok o ∧ options.ignoreErrors = false ∧
    o.exitStatus ≠ some 0 ∧ e = .failed h.toText o.exitStatus (Text.trim o.stderr)

def Shows (r : Host × HostRetried CommandOutput) (shown : HostOutput) : Prop :=
  ∃ o, r.2.result = .ok o ∧ shown = ⟨r.1.name, o.stdout, o.exitStatus, o.exitStatus ≠ some 0⟩

/-- What a command on several hosts is answered with. -/
structure Reported (options : ExecOptions) (tried : List (Host × HostRetried CommandOutput))
    (result : Except RemoteError (List HostOutput)) : Prop where
  ok_iff : (∃ outputs, result = .ok outputs) ↔ ∀ r ∈ tried, Passes options r.2
  outputs : ∀ outputs, result = .ok outputs → List.Forall₂ Shows tried outputs
  error : ∀ e, result = .error e → ∃ before h r after, tried = before ++ (h, r) :: after ∧
    (∀ r ∈ before, Passes options r.2) ∧ Fails options h r e

structure CopyReported (options : ExecOptions) (tried : List (Host × HostRetried Unit))
    (result : Except RemoteError Unit) : Prop where
  ok_iff : result = .ok () ↔ ∀ r ∈ tried, r.2.result = .ok ()
  error : ∀ e, result = .error e → ∃ before h r after, tried = before ++ (h, r) :: after ∧
    (∀ r ∈ before, r.2.result = .ok ()) ∧ GivesUp options h r e

theorem givesUp_toRemote {options : ExecOptions} {h : Host} {r : HostRetried α}
    {e : RetryError AttemptError} (hresult : r.result = .error e) :
    GivesUp options h r (AttemptError.toRemote h options.timeout e) := by
  rw [AttemptError.toRemote]
  cases hlast : e.inner with
  | timedOut => exact .timedOut hresult hlast
  | transport source => exact .unreachable hresult hlast

def report (options : ExecOptions) (r : Host × HostRetried CommandOutput) :
    Except RemoteError HostOutput :=
  match r.2.result with
  | .error e => .error (AttemptError.toRemote r.1 options.timeout e)
  | .ok o =>
    if !o.success && !options.ignoreErrors then
      .error (.failed r.1.toText o.exitStatus (Text.trim o.stderr))
    else .ok (outputOf r.1 o)

theorem report_cases (options : ExecOptions) (h : Host) (r : HostRetried CommandOutput) :
    (∃ shown, report options (h, r) = .ok shown ∧ Passes options r ∧ Shows (h, r) shown) ∨
      ∃ e, report options (h, r) = .error e ∧ ¬ Passes options r ∧ Fails options h r e := by
  simp only [report]
  cases hresult : r.result with
  | error e =>
    refine .inr ⟨_, rfl, ?_, .inl (givesUp_toRemote hresult)⟩
    rintro ⟨o, ho, -⟩
    cases hresult.symm.trans ho
  | ok o =>
    by_cases hfails : o.exitStatus ≠ some 0 ∧ options.ignoreErrors = false
    · refine .inr ⟨.failed h.toText o.exitStatus (Text.trim o.stderr), ?_, ?_,
        .inr ⟨o, hresult, hfails.2, hfails.1, rfl⟩⟩
      · simp [CommandOutput.success, hfails]
      · rintro ⟨o', ho', hpasses⟩
        cases hresult.symm.trans ho'
        simp [hfails] at hpasses
    · have hpasses : options.ignoreErrors = true ∨ o.exitStatus = some 0 := by
        cases hignore : options.ignoreErrors <;> simp_all
      refine .inl ⟨outputOf h o, ?_, ⟨o, hresult, hpasses⟩, o, hresult, ?_⟩
      · rcases hpasses with hpasses | hpasses <;> simp [CommandOutput.success, hpasses]
      · simp [outputOf, CommandOutput.success]

def counted (o : CommandOutput) (inv : Invocation ω) : Invocation ω :=
  let failures := inv.metrics.remoteFailures + if o.success then 0 else 1
  { inv with metrics := { inv.metrics with remoteFailures := failures } }

theorem collect_ok (ignoreErrors : Bool) (h : Host) (o : CommandOutput)
    (rest : List (Host × Except RemoteError CommandOutput)) (inv : Invocation ω) :
    collect ignoreErrors ((h, .ok o) :: rest) inv =
      if !o.success && !ignoreErrors then
        (.error (.failed h.toText o.exitStatus (Text.trim o.stderr)), counted o inv)
      else ((collect ignoreErrors rest (counted o inv)).1.map (outputOf h o :: ·),
        (collect ignoreErrors rest (counted o inv)).2) := by
  cases hsuccess : o.success <;> cases ignoreErrors <;>
    simp only [collect, counted, hsuccess] <;> rfl

/-- Going through the results answers with the reports of all hosts, or with the first that is an
error. It changes nothing but the number of failures. -/
theorem collect_eq (options : ExecOptions) (tried : List (Host × HostRetried CommandOutput))
    (inv : Invocation ω) :
    let (answer, after) := collect options.ignoreErrors (tried.map fun (h, r) =>
      (h, r.result.mapError (AttemptError.toRemote h options.timeout))) inv
    answer = tried.mapM (report options) ∧ after.outside = inv.outside ∧
      after.metrics.remoteCommands = inv.metrics.remoteCommands := by
  induction tried generalizing inv with
  | nil => exact ⟨rfl, rfl, rfl⟩
  | cons t rest ih =>
    obtain ⟨h, r⟩ := t
    rw [List.mapM_cons, List.map_cons, report]
    dsimp only
    cases hresult : r.result with
    | error e => exact ⟨rfl, rfl, rfl⟩
    | ok o =>
      have hhead : (Except.ok o : Except (RetryError AttemptError) CommandOutput).mapError
          (AttemptError.toRemote h options.timeout) = .ok o := rfl
      rw [hhead, collect_ok]
      -- A failed command is counted in any case, but ends the pass only if errors matter.
      by_cases hfails : (!o.success && !options.ignoreErrors) = true
      · rw [if_pos hfails]
        dsimp only
        rw [if_pos hfails]
        exact ⟨rfl, rfl, rfl⟩
      · obtain ⟨hanswer, houtside, hcommands⟩ := ih (counted o inv)
        simp only [if_neg hfails]
        refine ⟨?_, houtside, hcommands⟩
        rw [hanswer]
        rfl

theorem run_of_ne_nil (x : RemoteExecutor ω) (options : ExecOptions) {hosts : List Host}
    (hhosts : hosts ≠ []) (command : RemoteCommand) (inv : Invocation ω) :
    x.run options hosts command inv =
      let tried := x.tryCommand options hosts command inv
      let answer := collect options.ignoreErrors (resultsOf options hosts tried.1) tried.2
      (⟨answer.1, longest tried.1⟩, answer.2) := by
  rw [run, if_neg (by simpa using hhosts)]
  rfl

/-- A command on hosts is answered by the reports on the attempts on each of them. -/
theorem run_eq (x : RemoteExecutor ω) (options : ExecOptions) {hosts : List Host}
    (hhosts : hosts ≠ []) (command : RemoteCommand) (inv : Invocation ω) :
    let tried := x.tryCommand options hosts command inv
    let answer := x.run options hosts command inv
    answer.1 = ⟨(hosts.zip tried.1).mapM (report options), longest tried.1⟩ ∧
      answer.2.outside = tried.2.outside ∧
      answer.2.metrics.remoteCommands = tried.2.metrics.remoteCommands := by
  obtain ⟨hanswer, houtside, hcommands⟩ := collect_eq options
    (hosts.zip (x.tryCommand options hosts command inv).1)
    (x.tryCommand options hosts command inv).2
  rw [x.run_of_ne_nil options hhosts]
  exact ⟨congrArg (Timed.mk · _) hanswer, houtside, hcommands⟩

theorem copy_eq (x : RemoteExecutor ω) (options : ExecOptions) {hosts : List Host}
    (hhosts : hosts ≠ []) (source target : String) (inv : Invocation ω) :
    x.copy options hosts source target inv =
      let (tried, after) := x.tryCopy options hosts source target inv
      (⟨firstError (resultsOf options hosts tried), longest tried⟩, after) := by
  rw [copy, if_neg (by simpa using hhosts)]
  rfl

theorem firstError_eq (results : List (Host × Except RemoteError Unit)) :
    firstError results = (results.mapM Prod.snd).map fun _ => () := by
  induction results with
  | nil => rfl
  | cons r rest ih =>
    obtain ⟨h, e | u⟩ := r
    · rfl
    · rw [firstError, ih, List.mapM_cons]
      cases rest.mapM Prod.snd <;> rfl

theorem passes_iff {options : ExecOptions} {r : Host × HostRetried CommandOutput} :
    Passes options r.2 ↔ ∃ shown, report options r = .ok shown := by
  rcases report_cases options r.1 r.2 with ⟨shown, hshown, hpasses, -⟩ | ⟨e, herror, hnot, -⟩
  · exact iff_of_true hpasses ⟨shown, hshown⟩
  · refine iff_of_false hnot ?_
    rintro ⟨shown, hshown⟩
    cases herror.symm.trans hshown

theorem shows_of_report {options : ExecOptions} {r : Host × HostRetried CommandOutput}
    {shown : HostOutput} (h : report options r = .ok shown) : Shows r shown := by
  rcases report_cases options r.1 r.2 with ⟨shown', hshown, -, hshows⟩ | ⟨e, herror, -⟩
  · cases hshown.symm.trans h
    exact hshows
  · cases herror.symm.trans h

theorem fails_of_report {options : ExecOptions} {r : Host × HostRetried CommandOutput}
    {e : RemoteError} (h : report options r = .error e) : Fails options r.1 r.2 e := by
  rcases report_cases options r.1 r.2 with ⟨shown, hshown, -⟩ | ⟨e', herror, -, hfails⟩
  · cases hshown.symm.trans h
  · cases herror.symm.trans h
    exact hfails

theorem reported_mapM (options : ExecOptions) (tried : List (Host × HostRetried CommandOutput)) :
    Reported options tried (tried.mapM (report options)) where
  ok_iff := by
    constructor
    · rintro ⟨outputs, houtputs⟩ r hr
      obtain ⟨shown, -, hshown⟩ := Fallible.exists_of_mapM_eq_ok houtputs r hr
      exact passes_iff.2 ⟨shown, hshown⟩
    · exact fun hall => Fallible.exists_mapM_eq_ok fun r hr => passes_iff.1 (hall r hr)
  outputs outputs houtputs :=
    (Fallible.mapM_eq_ok.1 houtputs).imp fun _ _ => shows_of_report
  error e he := by
    obtain ⟨before, ⟨h, r⟩, after, htried, hbefore, herror⟩ := Fallible.mapM_eq_error.1 he
    exact ⟨before, h, r, after, htried, fun r hr => passes_iff.2 (hbefore r hr),
      fails_of_report herror⟩

theorem copyReported_firstError (options : ExecOptions) (hosts : List Host)
    (tried : List (HostRetried Unit)) :
    CopyReported options (hosts.zip tried) (firstError (resultsOf options hosts tried)) := by
  have hresult : firstError (resultsOf options hosts tried) =
      ((hosts.zip tried).mapM fun r : Host × HostRetried Unit =>
        r.2.result.mapError (AttemptError.toRemote r.1 options.timeout)).map fun _ => () := by
    rw [firstError_eq, resultsOf, List.mapM_map]
    rfl
  rw [hresult]
  constructor
  · rw [Fallible.map_eq_ok]
    constructor
    · rintro ⟨units, hunits, -⟩ r hr
      obtain ⟨u, -, hu⟩ := Fallible.exists_of_mapM_eq_ok hunits r hr
      exact Fallible.mapError_eq_ok.1 hu
    · intro hall
      obtain ⟨units, hunits⟩ := Fallible.exists_mapM_eq_ok fun r hr =>
        ⟨(), Fallible.mapError_eq_ok.2 (hall r hr)⟩
      exact ⟨units, hunits, rfl⟩
  · intro e he
    obtain ⟨before, ⟨h, r⟩, after, htried, hbefore, herror⟩ :=
      Fallible.mapM_eq_error.1 ((Fallible.Alike.map _ _ e).1 he)
    obtain ⟨cause, hcause, rfl⟩ := Fallible.mapError_eq_error.1 herror
    refine ⟨before, h, r, after, htried, fun r hr => ?_, givesUp_toRemote hcause⟩
    obtain ⟨u, hu⟩ := hbefore r hr
    exact Fallible.mapError_eq_ok.1 hu

/-! ## Hosts that do not notice each other -/

section

variable {view : ω → τ} (x : RemoteExecutor ω) (options : ExecOptions)

theorem confined_execOnce {script : String} {h : Host} (hexec : Thread.Confined view
      (x.transport.exec h script options.elevated options.timeout)) :
    Thread.Confined (fun inv => view inv.outside) (x.execOnce options script h) := by
  intro inv inv' hview
  obtain ⟨hreply, hafter⟩ := hexec inv.outside inv'.outside hview
  exact ⟨congrArg (AttemptError.ofReply options.timeout) hreply, hafter⟩

theorem foreign_execOnce {script : String} {h : Host} (hexec : Thread.Foreign view
      (x.transport.exec h script options.elevated options.timeout)) :
    Thread.Foreign (fun inv => view inv.outside) (x.execOnce options script h) :=
  fun inv => hexec inv.outside

theorem confined_copyOnce {source target : String} {h : Host} (hcopy : Thread.Confined view
      (x.transport.copy h source target options.timeout)) :
    Thread.Confined (fun inv => view inv.outside) (x.copyOnce options source target h) := by
  intro inv inv' hview
  obtain ⟨hreply, hafter⟩ := hcopy inv.outside inv'.outside hview
  exact ⟨congrArg (AttemptError.ofReply options.timeout) hreply, hafter⟩

theorem foreign_copyOnce {source target : String} {h : Host} (hcopy : Thread.Foreign view
      (x.transport.copy h source target options.timeout)) :
    Thread.Foreign (fun inv => view inv.outside) (x.copyOnce options source target h) :=
  fun inv => hcopy inv.outside

end

/-- The attempts on the hosts of a key, and what these see of the world after them, are the same
without all other hosts and in any world that is the same to these hosts. -/
def Undisturbed [DecidableEq κ] (key : Host → κ) (view : κ → ω → τ)
    (attempt : List Host → Action ω (List (HostRetried α))) (hosts : List Host)
    (inv : Invocation ω) : Prop :=
  ∀ own inv', view own inv'.outside = view own inv.outside →
    let all := attempt hosts inv
    let alone := attempt (hosts.filter (key · = own)) inv'
    ((hosts.zip all.1).filter (key ·.1 = own)).map Prod.snd = alone.1 ∧
      view own alone.2.outside = view own all.2.outside

theorem undisturbed_tryCommand [DecidableEq κ] {x : RemoteExecutor ω} {key : Host → κ}
    {view : κ → ω → τ} (hapart : x.transport.Apart key view) (options : ExecOptions)
    (hosts : List Host) (command : RemoteCommand) (inv : Invocation ω) :
    Undisturbed key view (x.tryCommand options · command) hosts inv := by
  intro own inv' hview
  have hown : ∀ h, key h = own → Thread.Confined (fun inv => view own inv.outside)
      (x.execOnce options (command.render h options.ignoreErrors) h) := by
    rintro h rfl
    exact x.confined_execOnce options (hapart.exec_own _ _ _ _)
  exact x.onHosts_filter options _ hown
    (fun h hother => x.foreign_execOnce options (hapart.exec_other _ _ _ _ _ hother)) hosts hview

theorem undisturbed_tryCopy [DecidableEq κ] {x : RemoteExecutor ω} {key : Host → κ}
    {view : κ → ω → τ} (hapart : x.transport.Apart key view) (options : ExecOptions)
    (hosts : List Host) (source target : String) (inv : Invocation ω) :
    Undisturbed key view (x.tryCopy options · source target) hosts inv := by
  intro own inv' hview
  have hown : ∀ h, key h = own → Thread.Confined (fun inv => view own inv.outside)
      (x.copyOnce options source target h) := by
    rintro h rfl
    exact x.confined_copyOnce options (hapart.copy_own _ _ _ _)
  exact x.onHosts_filter options _ hown
    (fun h hother => x.foreign_copyOnce options (hapart.copy_other _ _ _ _ _ hother)) hosts hview

/-- A command on hosts and the copying of a file are answered from the exact attempts on each host,
in the order of the hosts. Hosts that have nothing to do with each other are not disturbed by each
other. -/
theorem hosts_reported (x : RemoteExecutor ω) (options : ExecOptions) {hosts : List Host}
    (hhosts : hosts ≠ []) (command : RemoteCommand) (source target : String)
    (inv : Invocation ω) :
    let tried := (x.tryCommand options hosts command inv).1
    let copied := (x.tryCopy options hosts source target inv).1
    x.EachRetried options hosts tried ∧
      Reported options (hosts.zip tried) (x.run options hosts command inv).1.result ∧
      x.EachRetried options hosts copied ∧
      CopyReported options (hosts.zip copied) (x.copy options hosts source target inv).1.result ∧
      ∀ {κ τ : Type} [DecidableEq κ] (key : Host → κ) (view : κ → ω → τ),
        x.transport.Apart key view →
          Undisturbed key view (x.tryCommand options · command) hosts inv ∧
            Undisturbed key view (x.tryCopy options · source target) hosts inv := by
  refine ⟨x.eachRetried_onHosts .., ?_, x.eachRetried_onHosts .., ?_, fun key view hapart =>
    ⟨undisturbed_tryCommand hapart options hosts command inv,
      undisturbed_tryCopy hapart options hosts source target inv⟩⟩
  · obtain ⟨hanswer, -, -⟩ := x.run_eq options hhosts command inv
    rw [hanswer]
    exact reported_mapM options _
  · rw [x.copy_eq options hhosts]
    exact copyReported_firstError options hosts _

end RemoteExecutor

/-! ## Three hosts -/

/-- Hosts that count the commands they are given, and answer by the count. -/
def Transport.counting (answer : String → Nat → Reply (Except TransportError CommandOutput)) :
    Transport (String → Nat) where
  exec h _ _ _ := fun counts =>
    (answer h.name (counts h.name), fun name => counts name + if name = h.name then 1 else 0)
  copy _ _ _ _ := fun counts => (.ended .zero (.ok ()), counts)

theorem Transport.apart_counting
    (answer : String → Nat → Reply (Except TransportError CommandOutput)) :
    (Transport.counting answer).Apart Host.name fun name counts => counts name where
  exec_own h script elevated limit counts counts' hcounts := by simp [counting, hcounts]
  exec_other h name script elevated limit hne counts := by simp [counting, hne.symm]
  copy_own h source target limit counts counts' hcounts := ⟨rfl, hcounts⟩
  copy_other h name source target limit hne counts := rfl

namespace RemoteExecutor

/-- One host drops its first connection, one never answers, and on one commands fail. -/
def mixedAnswer (name : String) (made : Nat) : Reply (Except TransportError CommandOutput) :=
  if name = "hanging" then .hanging
  else if name = "failing" then .ended (.ofSeconds 1) (.ok { exitStatus := some 3 })
  else if made = 0 then .ended (.ofSeconds 1) (.error (.connection name "reset"))
  else .ended (.ofSeconds 1) (.ok { exitStatus := some 0 })

def mixed : RemoteExecutor (String → Nat) := { transport := .counting mixedAnswer }

def mixedHosts : List Host :=
  ["dropping", "hanging", "failing"].map fun name => ⟨name, name, none, Host.standardPort⟩

def mixedOptions : ExecOptions := { timeout := .ofSeconds 5, retry := .constant 2 100 }

theorem hosts_reported_mixed :
    let start : Invocation (String → Nat) := { outside := fun _ => 0 }
    let result := (mixed.run mixedOptions mixedHosts (.line "uptime") start).1.result
    let tried := (mixed.tryCommand mixedOptions mixedHosts (.line "uptime") start).1
    mixedHosts ≠ [] ∧ mixed.transport.Apart Host.name (fun name counts => counts name) ∧
      result = .error (.timedOut "hanging" (.ofSeconds 5) 2) ∧
      Reported mixedOptions (mixedHosts.zip tried) result ∧
      Undisturbed Host.name (fun name counts => counts name)
        (mixed.tryCommand mixedOptions · (.line "uptime")) mixedHosts start := by
  have hhosts : mixedHosts ≠ [] := by decide
  have hapart := Transport.apart_counting mixedAnswer
  obtain ⟨-, hreported, -, -, hundisturbed⟩ := hosts_reported mixed mixedOptions hhosts
    (.line "uptime") "notes" "/tmp/notes" { outside := fun _ => 0 }
  exact ⟨hhosts, hapart, by decide +kernel, hreported, (hundisturbed _ _ hapart).1⟩

end RemoteExecutor

end BenchCluster
