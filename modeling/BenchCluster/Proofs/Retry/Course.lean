import BenchCluster.Retry.Loop
import BenchCluster.Proofs.Thread.Turns

/-! # The calls of retried operations

What there is to know of each call, and from it what comes of all of them: the last one decides,
and every other one has failed with an error that is worth another attempt.
-/

namespace BenchCluster

variable {m : Type → Type} {ε α : Type}

/-- What comes of retrying an operation if there is no call after the given one. -/
inductive TimedCall.Concludes (limit : Option Duration) (isTransient : ε → Bool) (made : Nat)
    (delays : List Duration) (c : TimedCall ε α) : Except (RetryError ε) α → Prop
  | success {a : α} (answer : c.answer.result = .ok a) : c.Concludes limit isTransient made delays
      (.ok a)
  | permanent {e : ε} (answer : c.answer.result = .error e) (lasting : isTransient e = false) :
      c.Concludes limit isTransient made delays (.error (.permanent e))
  | exhausted {e : ε} (answer : c.answer.result = .error e) (transient : isTransient e = true)
      (last : ∀ delay ∈ delays.head?, outOfTime limit c.ended delay = true) :
      c.Concludes limit isTransient made delays (.error (.exhausted made c.ended e))

/-- After each call either all is over, or the call has failed with a transient error and there is
time for another one after the next delay. -/
theorem retryAfter_cases (limit : Option Duration) (isTransient : ε → Bool)
    (op : Nat → m (Timed (Except ε α))) (before : List (TimedCall ε α)) (begins : Duration)
    (delays : List Duration) :
    ∃ next, retryAfter limit isTransient op before begins delays =
        .call begins (op before.length) next ∧
      ∀ answer, (∃ result, next answer = .done ⟨result, before ++ [⟨begins, answer⟩]⟩ ∧
          TimedCall.Concludes limit isTransient (before.length + 1) delays ⟨begins, answer⟩ result) ∨
        ∃ e delay rest, answer.result = .error e ∧ isTransient e = true ∧ delays = delay :: rest ∧
          outOfTime limit (begins + answer.took) delay = false ∧
          next answer = retryAfter limit isTransient op (before ++ [⟨begins, answer⟩])
            (begins + answer.took + delay.roundUp) rest := by
  rw [retryAfter.eq_def]
  refine ⟨_, rfl, fun answer => ?_⟩
  cases hanswer : answer.result with
  | ok a => exact .inl ⟨_, rfl, .success hanswer⟩
  | error e =>
    cases htransient : isTransient e with
    | false => exact .inl ⟨_, by simp [htransient], .permanent hanswer htransient⟩
    | true =>
      cases delays with
      | nil =>
        exact .inl ⟨_, by simp [htransient, TimedCall.ended],
          .exhausted hanswer htransient (by simp)⟩
      | cons delay rest =>
        cases hlate : outOfTime limit (begins + answer.took) delay with
        | true =>
          exact .inl ⟨_, by simp [htransient, hlate, TimedCall.ended],
            .exhausted hanswer htransient (by simpa [TimedCall.ended] using hlate)⟩
        | false =>
          exact .inr ⟨e, delay, rest, rfl, htransient, rfl, hlate, by simp [htransient, hlate]⟩

/-- What holds of a retried operation if it holds as soon as it holds of what is left after each
call. -/
theorem retryAfter_induct {limit : Option Duration} {isTransient : ε → Bool}
    {op : Nat → m (Timed (Except ε α))}
    {P : List Duration → Thread m (Timed (Except ε α)) (Retried ε α) → Prop}
    (step : ∀ made begins delays next,
      (∀ answer, (∃ r, next answer = .done r) ∨
        ∃ delay rest, delays = delay :: rest ∧ P rest (next answer)) →
      P delays (.call begins (op made) next))
    (before : List (TimedCall ε α)) (begins : Duration) (delays : List Duration) :
    P delays (retryAfter limit isTransient op before begins delays) := by
  induction delays generalizing before begins with
  | nil =>
    obtain ⟨next, hcall, hnext⟩ := retryAfter_cases limit isTransient op before begins []
    rw [hcall]
    refine step _ _ _ _ fun answer => ?_
    rcases hnext answer with ⟨result, hdone, -⟩ | ⟨e, delay, rest, -, -, hnil, -⟩
    · exact .inl ⟨_, hdone⟩
    · cases hnil
  | cons delay rest ih =>
    obtain ⟨next, hcall, hnext⟩ := retryAfter_cases limit isTransient op before begins (delay :: rest)
    rw [hcall]
    refine step _ _ _ _ fun answer => ?_
    rcases hnext answer with ⟨result, hdone, -⟩ | ⟨e, d, others, -, -, hcons, -, hmore⟩
    · exact .inl ⟨_, hdone⟩
    · cases hcons
      exact .inr ⟨delay, rest, rfl, hmore ▸ ih _ _⟩

theorem all_retryAfter {P : m (Timed (Except ε α)) → Prop} {limit : Option Duration}
    {isTransient : ε → Bool} {op : Nat → m (Timed (Except ε α))} (h : ∀ made, P (op made))
    (before : List (TimedCall ε α)) (begins : Duration) (delays : List Duration) :
    (retryAfter limit isTransient op before begins delays).All P := by
  refine retryAfter_induct (P := fun _ t => t.All P) (fun made begins delays next hnext => ?_)
    before begins delays
  refine ⟨h made, fun answer => ?_⟩
  rcases hnext answer with ⟨r, hdone⟩ | ⟨delay, rest, -, hmore⟩
  · rw [hdone]
    trivial
  · exact hmore

theorem within_retryAfter (limit : Option Duration) (isTransient : ε → Bool)
    (op : Nat → m (Timed (Except ε α))) (before : List (TimedCall ε α)) (begins : Duration)
    (delays : List Duration) :
    (retryAfter limit isTransient op before begins delays).Within (delays.length + 1) := by
  refine retryAfter_induct (P := fun delays t => t.Within (delays.length + 1))
    (fun made begins delays next hnext answer => ?_) before begins delays
  rcases hnext answer with ⟨r, hdone⟩ | ⟨delay, rest, rfl, hmore⟩
  · rw [hdone]
    exact Thread.within_done _ r
  · exact hmore

/-! ## All calls of an operation -/

/-- The calls of a retried operation that begins at a time, after a number of calls and with these
delays left, and what comes of them. -/
inductive Retries (limit : Option Duration) (isTransient : ε → Bool) :
    Nat → Duration → List Duration → List (TimedCall ε α) → Except (RetryError ε) α → Prop
  | last {made : Nat} {delays : List Duration} {c : TimedCall ε α}
      {result : Except (RetryError ε) α}
      (concludes : c.Concludes limit isTransient (made + 1) delays result) :
      Retries limit isTransient made c.began delays [c] result
  | another {made : Nat} {delay : Duration} {delays : List Duration} {c : TimedCall ε α}
      {log : List (TimedCall ε α)} {result : Except (RetryError ε) α} {e : ε}
      (answer : c.answer.result = .error e) (transient : isTransient e = true)
      (inTime : outOfTime limit c.ended delay = false)
      (rest : Retries limit isTransient (made + 1) (c.ended + delay.roundUp) delays log result) :
      Retries limit isTransient made c.began (delay :: delays) (c :: log) result

/-- The log of a retried operation has what its calls have answered, in order. -/
theorem retries_of_endsBy {σ : Type} {limit : Option Duration} {isTransient : ε → Bool}
    {op : Nat → StateM σ (Timed (Except ε α))} {before : List (TimedCall ε α)} {begins : Duration}
    {delays : List Duration} {calls : List (Thread.Turn σ (Timed (Except ε α)))} {r : Retried ε α}
    (h : (retryAfter limit isTransient op before begins delays).EndsBy calls r) :
    ∃ log, r.log = before ++ log ∧
      Retries limit isTransient before.length begins delays log r.result ∧
      calls.map Thread.Turn.answer = log.map TimedCall.answer ∧
      calls.map Thread.Turn.act = (List.range' before.length log.length).map op := by
  induction calls generalizing before begins delays with
  | nil =>
    obtain ⟨next, hcall, -⟩ := retryAfter_cases limit isTransient op before begins delays
    rw [hcall] at h
    obtain ⟨c, later, hcalls, -⟩ := h.of_call
    cases hcalls
  | cons call calls ih =>
    obtain ⟨next, hcall, hnext⟩ := retryAfter_cases limit isTransient op before begins delays
    rw [hcall] at h
    obtain ⟨c, later, hcalls, hact, hrest⟩ := h.of_call
    obtain ⟨rfl, rfl⟩ := List.cons.inj hcalls
    -- The answer decides whether this was the last call, or how the next one begins.
    rcases hnext call.answer with
      ⟨result, hdone, hconcludes⟩ | ⟨e, delay, rest, hanswer, htransient, rfl, hlate, hmore⟩
    · rw [hdone] at hrest
      obtain ⟨rfl, rfl⟩ := hrest.of_done
      exact ⟨[⟨begins, call.answer⟩], rfl, .last hconcludes, rfl, by simp [hact]⟩
    · rw [hmore] at hrest
      obtain ⟨log, hlog, hretries, hanswers, hacts⟩ := ih hrest
      rw [List.length_append] at hretries hacts
      refine ⟨⟨begins, call.answer⟩ :: log, by simp [hlog],
        .another (c := ⟨begins, call.answer⟩) hanswer htransient hlate hretries, by simp [hanswers], ?_⟩
      simp [hact, hacts, List.range'_succ]

end BenchCluster
