import BenchCluster.Proofs.Remote.Noted

/-! # Remote work is bounded and counted

A command on hosts ends, whatever they do, within the time that its attempts and the delays between
them may take. The calls of the transport are those that the retry policy allows for on each host, and
they are what is counted and reported.
-/

namespace BenchCluster

/-- The call has not been answered in time, or not for reasons of the connection. -/
def ExecCall.Retriable (limit : Duration) (c : ExecCall) : Prop :=
  match c.reply with
  | .hanging => True
  | .ended after result => limit < after ∨ (∃ host text, result = .error (.connection host text)) ∨
      ∃ host cause, result = .error (.io host cause)

/-- The time that all attempts on a host and the delays between them take at most. -/
def ExecOptions.longestTime (options : ExecOptions) (draws : Draws) : Duration :=
  ⟨options.retry.attemptCount * options.timeout.nanoseconds⟩ +
    .sum ((options.retry.delaySequence draws).map .roundUp)

theorem AttemptError.took_ofReply_le {α : Type} (limit : Duration)
    (reply : Reply (Except TransportError α)) : (ofReply limit reply).took ≤ limit := by
  cases reply with
  | hanging => exact Nat.le_refl _
  | ended after result =>
    by_cases hle : after ≤ limit
    · cases result <;> simp [ofReply, Reply.within, hle]
    · simp only [ofReply, Reply.within, if_neg hle]
      exact Nat.le_refl _

theorem ExecCall.retriable_of_isTransient {limit : Duration} {c : ExecCall} {e : AttemptError}
    (h : (AttemptError.ofReply limit c.reply).result = .error e) (he : e.isTransient = true) :
    c.Retriable limit := by
  rw [Retriable]
  cases hreply : c.reply with
  | hanging => trivial
  | ended after result =>
    rw [hreply] at h
    by_cases hle : after ≤ limit
    · simp only [AttemptError.ofReply, Reply.within, if_pos hle] at h
      cases result with
      | ok o => cases h
      | error cause =>
        obtain rfl := Except.error.inj h
        cases cause with
        | connection host text => exact .inr (.inl ⟨host, text, rfl⟩)
        | io host cause => exact .inr (.inr ⟨host, cause, rfl⟩)
        | spawn program => cases he
        | missingFile path => cases he
    · exact .inl (Nat.lt_of_not_le hle)

namespace RemoteExecutor

variable {ω α : Type}

/-- The calls of the transport for one host. -/
structure Served (options : ExecOptions) (command : RemoteCommand) (h : Host)
    (share : List ExecCall) : Prop where
  one_le : 1 ≤ share.length
  le_attempts : share.length ≤ options.retry.attemptCount
  alike : ∀ c ∈ share, c.host = h ∧ c.script = command.render h options.ignoreErrors ∧
    c.elevated = options.elevated
  again : ∀ c ∈ share.dropLast, c.Retriable options.timeout

/-- There are between one call and as many as there are attempts for each time that a host is
listed. -/
theorem countP_served {options : ExecOptions} {command : RemoteCommand} {hosts : List Host}
    {shares : List (List ExecCall)} (hserved : List.Forall₂ (Served options command) hosts shares)
    (h : Host) :
    hosts.count h ≤ shares.flatten.countP (·.host = h) ∧
      shares.flatten.countP (·.host = h) ≤ hosts.count h * options.retry.attemptCount := by
  induction hserved with
  | nil => simp
  | @cons host share hosts shares hshare _ ih =>
    rw [List.flatten_cons, List.countP_append]
    by_cases hhost : host = h
    · have hall : share.countP (·.host = h) = share.length :=
        List.countP_eq_length.2 fun c hc => by simp [(hshare.alike c hc).1, hhost]
      have hone := hshare.one_le
      have hattempts := hshare.le_attempts
      rw [hall, hhost, List.count_cons_self, Nat.add_mul]
      omega
    · have hnone : share.countP (·.host = h) = 0 :=
        List.countP_eq_zero.2 fun c hc => by simp [(hshare.alike c hc).1, hhost]
      rw [hnone, List.count_cons_of_ne hhost, Nat.zero_add]
      exact ih

theorem foldl_max_elapsed (tried : List (HostRetried α)) (d : Duration) :
    tried.foldl (fun d r => max d r.elapsed) d = d ∨
      ∃ r ∈ tried, tried.foldl (fun d r => max d r.elapsed) d = r.elapsed := by
  induction tried generalizing d with
  | nil => exact .inl rfl
  | cons r rest ih =>
    rw [List.foldl_cons]
    rcases ih (max d r.elapsed) with hmax | ⟨r', hr', hlongest⟩
    · rw [hmax]
      rcases Nat.le_total d.nanoseconds r.elapsed.nanoseconds with hle | hle
      · exact .inr ⟨r, List.mem_cons_self, congrArg Duration.mk (Nat.max_eq_right hle)⟩
      · exact .inl (congrArg Duration.mk (Nat.max_eq_left hle))
    · exact .inr ⟨r', List.mem_cons_of_mem _ hr', hlongest⟩

theorem exists_longest_le {tried : List (HostRetried α)} (htried : tried ≠ []) :
    ∃ r ∈ tried, longest tried ≤ r.elapsed := by
  rcases foldl_max_elapsed tried .zero with hzero | ⟨r, hr, hlongest⟩
  · obtain ⟨r, hr⟩ := List.exists_mem_of_ne_nil tried htried
    refine ⟨r, hr, ?_⟩
    rw [longest, hzero]
    exact Nat.zero_le _
  · refine ⟨r, hr, ?_⟩
    rw [longest, hlongest]
    exact Nat.le_refl _

variable (x : RemoteExecutor ω) (options : ExecOptions)

theorem served_of_endsBy {command : RemoteCommand} {h : Host}
    {calls : List (Thread.Turn (Invocation (Noted ω)) (Timed (Except AttemptError CommandOutput)))}
    {r : HostRetried CommandOutput}
    (hends : (x.noted.attempts options (fun h => x.noted.execOnce options
      (command.render h options.ignoreErrors) h) h).EndsBy calls r) :
    Served options command h (calls.map Thread.Turn.exec) ∧ r.calls = calls.length ∧
      r.elapsed ≤ options.longestTime (x.draws h) := by
  obtain ⟨hretries, hanswers, hacts⟩ := x.noted.attempts_endsBy options _ hends
  have hlength : r.log.length = calls.length := by
    simpa using (congrArg List.length hanswers).symm
  have hnoted := fun c hc => x.noted_of_act options (hacts c hc)
  have hdelays := options.retry.length_delaySequence_add_one (x.noted.draws h)
  refine ⟨⟨?_, ?_, ?_, ?_⟩, hlength, ?_⟩
  · rw [List.length_map, ← hlength]
    exact hretries.length_pos
  · rw [List.length_map, ← hlength, ← hdelays]
    exact hretries.length_le
  · intro c hc
    obtain ⟨turn, hturn, rfl⟩ := List.mem_map.1 hc
    obtain ⟨-, -, hhost, hscript, helevated, -⟩ := hnoted turn hturn
    exact ⟨hhost, hscript, helevated⟩
  · intro c hc
    rw [← List.map_dropLast] at hc
    obtain ⟨turn, hturn, rfl⟩ := List.mem_map.1 hc
    have hanswer := List.mem_map_of_mem (f := Thread.Turn.answer) hturn
    rw [List.map_dropLast, hanswers, ← List.map_dropLast] at hanswer
    obtain ⟨call, hcall, hcallAnswer⟩ := List.mem_map.1 hanswer
    obtain ⟨e, he, htransient⟩ := hretries.failsForNow call hcall
    obtain ⟨-, -, -, -, -, hreply⟩ := hnoted turn ((List.dropLast_sublist calls).subset hturn)
    rw [hcallAnswer, hreply] at he
    exact ExecCall.retriable_of_isTransient he htransient
  · have htook : ∀ c ∈ r.log, c.answer.took ≤ options.timeout := by
      intro c hc
      have hanswer := List.mem_map_of_mem (f := TimedCall.answer) hc
      rw [← hanswers] at hanswer
      obtain ⟨turn, hturn, hturnAnswer⟩ := List.mem_map.1 hanswer
      obtain ⟨-, -, -, -, -, hreply⟩ := hnoted turn hturn
      rw [← hturnAnswer, hreply]
      exact AttemptError.took_ofReply_le _ _
    have hlast := List.getLast?_eq_some_getLast (List.ne_nil_of_length_pos hretries.length_pos)
    have hended := hretries.ended_le htook _ hlast
    rw [hdelays] at hended
    rw [Retried.elapsed, hlast]
    simpa [Duration.le_iff, ExecOptions.longestTime, Duration.zero, noted] using hended

theorem noted_of_follow
    {calls : List (Thread.Turn (Invocation (Noted ω)) (Timed (Except AttemptError CommandOutput)))}
    {inv last : Invocation (Noted ω)} (hfollow : Thread.Turn.Follow inv calls last)
    (hacts : ∀ c ∈ calls, ∃ script h, c.act = x.noted.execOnce options script h) :
    last.outside.execs = inv.outside.execs ++ calls.map Thread.Turn.exec ∧
      last.metrics.remoteCommands = inv.metrics.remoteCommands + calls.length := by
  induction calls generalizing inv with
  | nil =>
    obtain rfl : last = inv := hfollow
    simp
  | cons c rest ih =>
    obtain ⟨rfl, hrest⟩ := hfollow
    obtain ⟨⟨script, h, hact⟩, hacts⟩ := List.forall_mem_cons.1 hacts
    obtain ⟨hexecs, hcommands, -⟩ := x.noted_of_act options hact
    obtain ⟨hexecs', hcommands'⟩ := ih hrest hacts
    rw [hexecs', hexecs, hcommands', hcommands]
    simp [Nat.add_assoc, Nat.add_comm 1]

/-- The calls that are noted of a command on hosts: each host has a share of them, in their order, and
there are as many as are counted. -/
theorem shares_of_tryCommand (hosts : List Host) (command : RemoteCommand)
    (inv : Invocation (Noted ω)) :
    let tried := x.noted.tryCommand options hosts command inv
    ∃ (execs : List ExecCall) (shares : List (List ExecCall)),
      tried.2.outside.execs = inv.outside.execs ++ execs ∧
      tried.2.metrics.remoteCommands = inv.metrics.remoteCommands + execs.length ∧
      execs.Perm shares.flatten ∧ (∀ share ∈ shares, share.Sublist execs) ∧
      List.Forall₂ (Served options command) hosts shares ∧
      ∀ r ∈ hosts.zip tried.1, r.2.elapsed ≤ options.longestTime (x.draws r.1) ∧
        ∃ share, (r.1, share) ∈ hosts.zip shares ∧ share.length = r.2.calls := by
  obtain ⟨calls, ends, hfollow, htried, hends, hperm, hsub⟩ := x.noted.onHosts_shares options
    (fun h => x.noted.execOnce options (command.render h options.ignoreErrors) h) hosts inv
  have hacts : ∀ c ∈ calls, ∃ script h, c.act = x.noted.execOnce options script h := by
    intro c hc
    obtain ⟨share, hshare, hcshare⟩ := List.mem_flatten.1 (hperm.subset hc)
    obtain ⟨e, he, rfl⟩ := List.mem_map.1 hshare
    obtain ⟨h, -, hend⟩ := Thread.exists_of_forall₂_of_mem hends he
    exact ⟨_, h, (x.noted.attempts_endsBy options _ hend).2.2 c hcshare⟩
  obtain ⟨hexecs, hcommands⟩ := x.noted_of_follow options hfollow hacts
  have hserved := hends.imp fun _ _ => x.served_of_endsBy options
  refine ⟨calls.map Thread.Turn.exec, ends.map fun e => e.1.map Thread.Turn.exec, hexecs, ?_, ?_,
    ?_, ?_, ?_⟩
  · rw [List.length_map]
    exact hcommands
  · have hmapped := hperm.map Thread.Turn.exec
    rw [List.map_flatten, List.map_map] at hmapped
    exact hmapped
  · exact List.forall_mem_map.2 fun e he => (hsub e he).map _
  · rw [List.forall₂_map_right_iff]
    exact (hserved.imp fun _ _ h => h.1).flip
  · intro r hr
    change r ∈ hosts.zip (x.noted.onHosts options _ hosts inv).1 at hr
    rw [← htried, List.zip_map_right, List.mem_map] at hr
    obtain ⟨⟨h, e⟩, hmem, rfl⟩ := hr
    obtain ⟨-, hcalls, helapsed⟩ := List.forall₂_zip hserved.flip hmem
    refine ⟨helapsed, e.1.map Thread.Turn.exec, ?_, ?_⟩
    · rw [List.zip_map_right]
      exact List.mem_map_of_mem (f := Prod.map id _) hmem
    · rw [List.length_map, ← hcalls]
      rfl

/-- The longest time is over when all attempts on some host, and the delays between them, may be. -/
theorem longest_le_longestTime {hosts : List Host} (hhosts : hosts ≠ [])
    {tried : List (HostRetried α)} (hlength : tried.length = hosts.length)
    (helapsed : ∀ r ∈ hosts.zip tried, r.2.elapsed ≤ options.longestTime (x.draws r.1)) :
    ∃ h ∈ hosts, longest tried ≤ options.longestTime (x.draws h) := by
  have hnonempty : tried ≠ [] := by
    rw [← List.length_pos_iff, hlength]
    exact List.length_pos_iff.2 hhosts
  obtain ⟨r, hr, hlongest⟩ := exists_longest_le hnonempty
  rw [← List.map_snd_zip (Nat.le_of_eq hlength)] at hr
  obtain ⟨⟨h, r⟩, hmem, rfl⟩ := List.mem_map.1 hr
  exact ⟨h, (List.of_mem_zip hmem).1, Nat.le_trans hlongest (helapsed (h, r) hmem)⟩

/-- An error of time tells the timeout, and the number of calls on the host that it is about. -/
theorem timedOut_of_reports {hosts : List Host} {tried : List (HostRetried CommandOutput)}
    (heach : x.EachRetried options hosts tried) {name : String} {timeout : Duration} {n : Nat}
    (h : (hosts.zip tried).mapM (report options) = .error (.timedOut name timeout n)) :
    timeout = options.timeout ∧ ∃ r ∈ hosts.zip tried, r.1.toText = name ∧ r.2.calls = n := by
  obtain ⟨before, host, r, after, hzip, -, hfails⟩ :=
    (reported_mapM options (hosts.zip tried)).error _ h
  have hmem : (host, r) ∈ hosts.zip tried := hzip ▸ by simp
  rcases hfails with hgivesUp | ⟨o, -, -, -, hfailed⟩
  · cases hgivesUp with
    | timedOut hresult hlast =>
      have hattempts := (heach.exact (host, r) hmem).attempts_eq hresult (by rw [hlast]; rfl)
      exact ⟨rfl, (host, r), hmem, rfl, hattempts.symm⟩
  · cases hfailed

/-- A command on hosts ends in time, and the calls of the transport are shared by the hosts: each has
at least one call and no more than there are attempts, all alike, and another one only if there was no
answer. As many calls are counted, and an error of time tells how many there were. -/
theorem run_bounded {hosts : List Host} (hhosts : hosts ≠ []) (command : RemoteCommand)
    (inv : Invocation ω) :
    let answer := x.run options hosts command inv
    let noted := x.noted.run options hosts command (Noted.fresh inv)
    let execs := noted.2.outside.execs
    (noted.1 = answer.1 ∧ Noted.forget noted.2 = answer.2) ∧
      (∃ h ∈ hosts, answer.1.took ≤ options.longestTime (x.draws h)) ∧
      answer.2.metrics.remoteCommands = inv.metrics.remoteCommands + execs.length ∧
      (∀ h ∈ hosts, hosts.count h ≤ execs.countP (·.host = h) ∧
        execs.countP (·.host = h) ≤ hosts.count h * options.retry.attemptCount) ∧
      ∃ shares : List (List ExecCall), execs.Perm shares.flatten ∧
        (∀ share ∈ shares, share.Sublist execs) ∧
        List.Forall₂ (Served options command) hosts shares ∧
        ∀ name timeout n, answer.1.result = .error (.timedOut name timeout n) →
          timeout = options.timeout ∧
            ∃ p ∈ hosts.zip shares, p.1.toText = name ∧ p.2.length = n := by
  intro answer noted execs
  let tried := x.noted.tryCommand options hosts command (Noted.fresh inv)
  have hforget : answer = (noted.1, Noted.forget noted.2) :=
    x.run_forget options hosts command (Noted.fresh inv)
  obtain ⟨hreply, houtside, hcommands⟩ := x.noted.run_eq options hhosts command (Noted.fresh inv)
  have heach : x.noted.EachRetried options hosts tried.1 := x.noted.eachRetried_onHosts ..
  obtain ⟨execs', shares, hexecs, hcount, hperm, hsub, hserved, htried⟩ :=
    x.shares_of_tryCommand options hosts command (Noted.fresh inv)
  obtain rfl : execs = execs' := (congrArg Noted.execs houtside).trans hexecs
  rw [hforget]
  refine ⟨⟨rfl, rfl⟩, ?_, hcommands.trans hcount, fun h _ => ?_, shares, hperm, hsub, hserved, ?_⟩
  · have htook : noted.1.took = longest tried.1 := congrArg Timed.took hreply
    rw [htook]
    exact x.longest_le_longestTime options hhosts heach.length_eq fun r hr => (htried r hr).1
  · rw [hperm.countP_eq]
    exact countP_served hserved h
  · intro name timeout n htimedOut
    have hresult : noted.1.result = (hosts.zip tried.1).mapM (report options) :=
      congrArg Timed.result hreply
    obtain ⟨htimeout, r, hr, hname, hcalls⟩ :=
      x.noted.timedOut_of_reports options heach (hresult.symm.trans htimedOut)
    obtain ⟨-, share, hshare, hlength⟩ := htried r hr
    exact ⟨htimeout, (r.1, share), hshare, hname, hlength.trans hcalls⟩

theorem run_bounded_mixed :
    let start : Invocation (String → Nat) := { outside := fun _ => 0 }
    let answer := mixed.run mixedOptions mixedHosts (.line "uptime") start
    let execs := (mixed.noted.run mixedOptions mixedHosts (.line "uptime")
      (Noted.fresh start)).2.outside.execs
    mixedHosts ≠ [] ∧ answer.1 = ⟨.error (.timedOut "hanging" (.ofSeconds 5) 2), .ofMillis 10100⟩ ∧
      execs.length = 5 ∧ answer.2.metrics.remoteCommands = 0 + execs.length ∧
      (∃ h ∈ mixedHosts, answer.1.took ≤ mixedOptions.longestTime (mixed.draws h)) ∧
      ∃ shares : List (List ExecCall), execs.Perm shares.flatten ∧
        List.Forall₂ (Served mixedOptions (.line "uptime")) mixedHosts shares := by
  have hhosts : mixedHosts ≠ [] := by decide
  obtain ⟨-, htook, hcommands, -, shares, hperm, -, hserved, -⟩ :=
    run_bounded mixed mixedOptions hhosts (.line "uptime") { outside := fun _ => 0 }
  exact ⟨hhosts, by decide +kernel, by decide +kernel, hcommands, htook, shares, hperm, hserved⟩

end RemoteExecutor

end BenchCluster
