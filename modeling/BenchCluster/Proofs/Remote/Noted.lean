import BenchCluster.Proofs.Remote.Reports

/-! # Noting the calls of a transport

A transport over any world can keep a list of the commands that it is given and of its replies to
them. Nothing else comes of it: what a command on hosts is answered with and what it does to the
world and to the counters stays the same.
-/

namespace BenchCluster

/-- A call of a transport to run a script on a host, and the reply to it. -/
structure ExecCall where
  host : Host
  script : String
  elevated : Bool
  reply : Reply (Except TransportError CommandOutput)

/-- A world, and the calls to run scripts that have been made in it. -/
structure Noted (ω : Type) where
  world : ω
  execs : List ExecCall

def Transport.noted {ω : Type} (t : Transport ω) : Transport (Noted ω) where
  exec h script elevated limit := fun w =>
    let (reply, world) := t.exec h script elevated limit w.world
    (reply, ⟨world, w.execs ++ [⟨h, script, elevated, reply⟩]⟩)
  copy h source target limit := fun w =>
    let (reply, world) := t.copy h source target limit w.world
    (reply, { w with world })

def Noted.fresh {ω : Type} (inv : Invocation ω) : Invocation (Noted ω) :=
  { metrics := inv.metrics, outside := ⟨inv.outside, []⟩ }

def Noted.forget {ω : Type} (inv : Invocation (Noted ω)) : Invocation ω :=
  { metrics := inv.metrics, outside := inv.outside.world }

/-- The call that was noted last. -/
def Thread.Turn.exec {ω β : Type} (c : Thread.Turn (Invocation (Noted ω)) β) : ExecCall :=
  c.after.outside.execs.getLastD ⟨default, "", false, .hanging⟩

variable {ω α : Type}

theorem alike_retryAfter {σ σ' ε : Type} {forget : σ → σ'} {limit : Option Duration}
    {isTransient : ε → Bool} {op : Nat → StateM σ (Timed (Except ε α))}
    {op' : Nat → StateM σ' (Timed (Except ε α))}
    (h : ∀ made s, op' made (forget s) = ((op made s).1, forget (op made s).2))
    (before : List (TimedCall ε α)) (begins : Duration) (delays : List Duration) :
    Thread.Alike forget (retryAfter limit isTransient op before begins delays)
      (retryAfter limit isTransient op' before begins delays) := by
  induction delays generalizing before begins with
  | nil =>
    rw [retryAfter.eq_def, retryAfter.eq_def]
    refine .call (h _) fun answer => ?_
    cases answer.result with
    | ok a => exact .done _
    | error e =>
      dsimp only
      split <;> exact .done _
  | cons delay rest ih =>
    rw [retryAfter.eq_def, retryAfter.eq_def]
    refine .call (h _) fun answer => ?_
    cases answer.result with
    | ok a => exact .done _
    | error e =>
      dsimp only
      split
      · exact .done _
      · split
        · exact .done _
        · exact ih _ _

namespace RemoteExecutor

variable (x : RemoteExecutor ω) (options : ExecOptions)

def noted : RemoteExecutor (Noted ω) := { transport := x.transport.noted, draws := x.draws }

theorem execOnce_forget (script : String) (h : Host) (inv : Invocation (Noted ω)) :
    x.execOnce options script h (Noted.forget inv) =
      ((x.noted.execOnce options script h inv).1,
        Noted.forget (x.noted.execOnce options script h inv).2) := rfl

theorem tryCommand_forget (hosts : List Host) (command : RemoteCommand)
    (inv : Invocation (Noted ω)) :
    x.tryCommand options hosts command (Noted.forget inv) =
      ((x.noted.tryCommand options hosts command inv).1,
        Noted.forget (x.noted.tryCommand options hosts command inv).2) := by
  refine Thread.runAll_alike ?_ (x.noted.allWithin_attempts options _ hosts)
    (x.allWithin_attempts options _ hosts) inv
  rw [List.forall₂_map_left_iff, List.forall₂_map_right_iff, List.forall₂_same]
  exact fun h _ => alike_retryAfter (fun _ => x.execOnce_forget options _ h) [] .zero _

theorem collect_forget (ignoreErrors : Bool)
    (results : List (Host × Except RemoteError CommandOutput)) (inv : Invocation (Noted ω)) :
    collect ignoreErrors results (Noted.forget inv) =
      ((collect ignoreErrors results inv).1, Noted.forget (collect ignoreErrors results inv).2) := by
  induction results generalizing inv with
  | nil => rfl
  | cons r rest ih =>
    obtain ⟨h, e | o⟩ := r
    · rfl
    · simp only [collect_ok]
      have hrest := ih (counted o inv)
      change collect ignoreErrors rest (counted o (Noted.forget inv)) = _ at hrest
      rw [hrest]
      split <;> rfl

/-- Noting the calls changes nothing else. -/
theorem run_forget (hosts : List Host) (command : RemoteCommand) (inv : Invocation (Noted ω)) :
    x.run options hosts command (Noted.forget inv) =
      ((x.noted.run options hosts command inv).1,
        Noted.forget (x.noted.run options hosts command inv).2) := by
  by_cases hhosts : hosts = []
  · rw [hhosts]
    rfl
  · rw [x.run_of_ne_nil options hhosts, x.noted.run_of_ne_nil options hhosts, tryCommand_forget]
    dsimp only
    rw [collect_forget]

/-! ## What is noted of an attempt -/

theorem noted_of_act {script : String} {h : Host}
    {c : Thread.Turn (Invocation (Noted ω)) (Timed (Except AttemptError CommandOutput))}
    (hact : c.act = x.noted.execOnce options script h) :
    c.after.outside.execs = c.state.outside.execs ++ [c.exec] ∧
      c.after.metrics.remoteCommands = c.state.metrics.remoteCommands + 1 ∧
      c.exec.host = h ∧ c.exec.script = script ∧ c.exec.elevated = options.elevated ∧
      c.answer = AttemptError.ofReply options.timeout c.exec.reply := by
  obtain ⟨act, inv⟩ := c
  obtain rfl : act = x.noted.execOnce options script h := hact
  have hexec : (⟨x.noted.execOnce options script h, inv⟩ :
      Thread.Turn (Invocation (Noted ω)) _).exec = ⟨h, script, options.elevated,
        (x.transport.exec h script options.elevated options.timeout inv.outside.world).1⟩ := by
    exact List.getLastD_concat ..
  rw [hexec]
  exact ⟨rfl, rfl, rfl, rfl, rfl, rfl⟩

end RemoteExecutor

end BenchCluster
