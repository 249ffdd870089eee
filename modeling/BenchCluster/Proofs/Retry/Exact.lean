import BenchCluster.Proofs.Retry.Course

/-! # Retrying is exact

How many calls a retried operation gets, when each of them begins, and what comes of all of them.
-/

namespace BenchCluster

variable {σ ε α : Type}

def Duration.Whole (d : Duration) : Prop := ∃ ms, d = .ofMillis ms

theorem Duration.Whole.add {a b : Duration} (ha : a.Whole) (hb : b.Whole) : (a + b).Whole := by
  obtain ⟨x, rfl⟩ := ha
  obtain ⟨y, rfl⟩ := hb
  refine ⟨x + y, congrArg Duration.mk ?_⟩
  simp [ofMillis, Nat.add_mul]

theorem Duration.whole_roundUp (d : Duration) : d.roundUp.Whole := ⟨_, rfl⟩

theorem Duration.add_roundUp_le {now delay limit : Duration} (hnow : now.Whole)
    (hlimit : limit.Whole) (h : now + delay ≤ limit) : now + delay.roundUp ≤ limit := by
  obtain ⟨x, rfl⟩ := hnow
  obtain ⟨y, rfl⟩ := hlimit
  simp only [le_iff, add_nanoseconds, roundUp, ofMillis] at h ⊢
  omega

theorem outOfTime_eq_true_iff {limit : Option Duration} {now delay : Duration} :
    outOfTime limit now delay = true ↔ ∃ most, limit = some most ∧ most < now + delay := by
  cases limit <;> simp [outOfTime]

theorem forall_outOfTime_iff {limit : Option Duration} {ended : Duration} {delays : List Duration}
    {n : Nat} (hpos : 0 < n) (hle : n ≤ delays.length + 1) :
    (∀ delay ∈ (delays.drop (n - 1)).head?, outOfTime limit ended delay = true) ↔
      n = delays.length + 1 ∨ ∃ most delay, limit = some most ∧ delays[n - 1]? = some delay ∧
        most < ended + delay := by
  rw [List.head?_drop]
  cases hdelay : delays[n - 1]? with
  | none =>
    have hall : n = delays.length + 1 := by
      have := List.getElem?_eq_none_iff.1 hdelay
      omega
    simp [hall]
  | some delay =>
    have hnot : n ≠ delays.length + 1 := by
      have := (List.getElem?_eq_some_iff.1 hdelay).1
      omega
    simp [hnot, outOfTime_eq_true_iff]

namespace TimedCall

variable {limit : Option Duration} {isTransient : ε → Bool} {made : Nat} {delays : List Duration}
  {c : TimedCall ε α} {result : Except (RetryError ε) α}

def FailsForNow (isTransient : ε → Bool) (c : TimedCall ε α) : Prop :=
  ∃ e, c.answer.result = .error e ∧ isTransient e = true

def conclusion (isTransient : ε → Bool) (number : Nat) (c : TimedCall ε α) :
    Except (RetryError ε) α :=
  match c.answer.result with
  | .ok a => .ok a
  | .error e => .error (if isTransient e then .exhausted number c.ended e else .permanent e)

theorem Concludes.result_eq (h : c.Concludes limit isTransient made delays result) :
    result = c.conclusion isTransient made := by
  cases h <;> simp_all [conclusion]

theorem Concludes.exhausted_iff (h : c.Concludes limit isTransient made delays result) :
    (∃ attempts elapsed e, result = .error (.exhausted attempts elapsed e)) ↔
      c.FailsForNow isTransient ∧ ∀ delay ∈ delays.head?, outOfTime limit c.ended delay = true := by
  constructor
  · rintro ⟨attempts, elapsed, e, rfl⟩
    cases h with
    | exhausted answer transient last => exact ⟨⟨e, answer, transient⟩, last⟩
  · rintro ⟨⟨e, answer, transient⟩, -⟩
    cases h with
    | success answer' => cases answer.symm.trans answer'
    | permanent answer' lasting =>
      cases answer.symm.trans answer'
      exact absurd transient (by simp [lasting])
    | exhausted => exact ⟨_, _, _, rfl⟩

end TimedCall

namespace Retries

variable {limit : Option Duration} {isTransient : ε → Bool} {made : Nat} {begins : Duration}
  {delays : List Duration} {log : List (TimedCall ε α)} {result : Except (RetryError ε) α}

theorem length_pos (h : Retries limit isTransient made begins delays log result) :
    0 < log.length := by
  cases h <;> simp

theorem length_le (h : Retries limit isTransient made begins delays log result) :
    log.length ≤ delays.length + 1 := by
  induction h with
  | last concludes => simp
  | another answer transient inTime rest ih => simpa using ih

theorem began_head (h : Retries limit isTransient made begins delays log result) :
    ∀ c ∈ log.head?, c.began = begins := by
  cases h <;> simp

/-- There is another call after one that has failed for now, once the delay in its place is over. -/
theorem next (h : Retries limit isTransient made begins delays log result) {k : Nat}
    {c later : TimedCall ε α} (hc : log[k]? = some c) (hlater : log[k + 1]? = some later) :
    c.FailsForNow isTransient ∧
      ∃ delay, delays[k]? = some delay ∧ later.began = c.ended + delay.roundUp := by
  induction h generalizing k with
  | last concludes => cases hlater
  | another answer transient inTime rest ih =>
    cases k with
    | zero =>
      obtain rfl := Option.some.inj hc
      refine ⟨⟨_, answer, transient⟩, _, rfl, rest.began_head later ?_⟩
      simpa [List.head?_eq_getElem?] using hlater
    | succ k => exact ih hc hlater

theorem failsForNow (h : Retries limit isTransient made begins delays log result) :
    ∀ c ∈ log.dropLast, c.FailsForNow isTransient := by
  induction h with
  | last concludes => simp
  | another answer transient inTime rest ih =>
    rw [List.dropLast_cons_of_ne_nil (List.ne_nil_of_length_pos rest.length_pos)]
    exact List.forall_mem_cons.2 ⟨⟨_, answer, transient⟩, ih⟩

/-- The last call ends when as many calls as there may be, and all delays, are over at the latest. -/
theorem ended_le (h : Retries limit isTransient made begins delays log result) {most : Duration}
    (htook : ∀ c ∈ log, c.answer.took ≤ most) :
    ∀ c ∈ log.getLast?, c.ended ≤ begins + ⟨(delays.length + 1) * most.nanoseconds⟩ +
      .sum (delays.map .roundUp) := by
  induction h with
  | @last made delays c result concludes =>
    intro last hlast
    obtain rfl : c = last := by simpa using hlast
    have hc := htook c (by simp)
    simp only [Duration.le_iff, TimedCall.ended, Duration.add_nanoseconds, Nat.add_mul] at hc ⊢
    omega
  | @another made delay delays c log result e answer transient inTime rest ih =>
    intro last hlast
    have hc := htook c (by simp)
    have hnonempty := List.ne_nil_of_length_pos rest.length_pos
    rw [List.getLast?_cons_of_ne_nil hnonempty] at hlast
    have hrest := ih (fun c hc => htook c (List.mem_cons_of_mem _ hc)) last hlast
    simp only [Duration.le_iff, TimedCall.ended, Duration.add_nanoseconds, Nat.add_mul,
      Duration.sum, List.map_cons, List.foldr_cons, List.length_cons] at hc hrest ⊢
    omega

theorem concludes (h : Retries limit isTransient made begins delays log result) :
    ∃ c, log.getLast? = some c ∧ c.Concludes limit isTransient (made + log.length)
      (delays.drop (log.length - 1)) result := by
  induction h with
  | last concludes => exact ⟨_, rfl, concludes⟩
  | @another made delay delays c log result e answer transient inTime rest ih =>
    obtain ⟨last, hlast, hconcludes⟩ := ih
    have hpos := rest.length_pos
    refine ⟨last, by simp [List.getLast?_cons, hlast], ?_⟩
    have hnumber : made + (c :: log).length = made + 1 + log.length := by
      simp only [List.length_cons]
      omega
    have hdelays : (delay :: delays).drop ((c :: log).length - 1) =
        delays.drop (log.length - 1) := by
      obtain ⟨n, hn⟩ := Nat.exists_eq_add_of_lt hpos
      simp [hn]
    rw [hnumber, hdelays]
    exact hconcludes

/-- No call begins after the limit. All times are whole, so that rounding does not matter. -/
theorem began_le {most : Duration} (h : Retries (some most) isTransient made begins delays log result)
    (hmost : most.Whole) (hbegins : begins.Whole) (hle : begins ≤ most)
    (htook : ∀ c ∈ log, c.answer.took.Whole) : ∀ c ∈ log, c.began ≤ most := by
  induction h with
  | last concludes => simpa using hle
  | @another made delay delays c log result e answer transient inTime rest ih =>
    have hended : c.ended.Whole := hbegins.add (htook c List.mem_cons_self)
    have hwait : c.ended + delay ≤ most := by
      simpa [outOfTime, Duration.le_iff, Duration.lt_iff] using inTime
    have hrest := ih (hended.add delay.whole_roundUp) (Duration.add_roundUp_le hended hmost hwait)
      fun c hc => htook c (List.mem_cons_of_mem _ hc)
    exact List.forall_mem_cons.2 ⟨hle, hrest⟩

end Retries

/-- The calls that a policy allows for, the times at which they begin, and what comes of them. -/
structure Retried.Exact (policy : RetryPolicy) (delays : List Duration) (isTransient : ε → Bool)
    (r : Retried ε α) : Prop where
  delays_length : delays.length + 1 = policy.attemptCount
  calls_pos : 0 < r.calls
  calls_le : r.calls ≤ policy.attemptCount
  first : ∀ c ∈ r.log.head?, c.began = .zero
  next : ∀ k c later, r.log[k]? = some c → r.log[k + 1]? = some later →
    c.FailsForNow isTransient ∧
      ∃ delay, delays[k]? = some delay ∧ later.began = c.ended + delay.roundUp
  result : ∀ c ∈ r.log.getLast?, r.result = c.conclusion isTransient r.calls
  exhausted_iff : ∀ c ∈ r.log.getLast?,
    (∃ attempts elapsed e, r.result = .error (.exhausted attempts elapsed e)) ↔
      c.FailsForNow isTransient ∧ (r.calls = policy.attemptCount ∨
        ∃ most delay, policy.maxElapsed = some most ∧ delays[r.calls - 1]? = some delay ∧
          most < c.ended + delay)
  inTime : (∀ c ∈ r.log, c.answer.took.Whole) →
    ∀ most ∈ policy.maxElapsed, ∀ c ∈ r.log, c.began ≤ most

/-- An error that is worth another attempt, and that ends all attempts, tells their number. -/
theorem Retried.Exact.attempts_eq {policy : RetryPolicy} {delays : List Duration}
    {isTransient : ε → Bool} {r : Retried ε α} (h : r.Exact policy delays isTransient)
    {e : RetryError ε} (he : r.result = .error e) (htransient : isTransient e.inner = true) :
    e.attempts = r.calls := by
  have hlast := List.getLast?_eq_some_getLast (List.ne_nil_of_length_pos h.calls_pos)
  have hresult := h.result _ hlast
  rw [he, TimedCall.conclusion] at hresult
  split at hresult
  · cases hresult
  · obtain rfl := Except.error.inj hresult
    split at htransient
    · rw [if_pos (by assumption)]
      rfl
    · exact absurd htransient (by assumption)

theorem RetryPolicy.length_delaySequence_add_one (policy : RetryPolicy) (draws : Draws) :
    (policy.delaySequence draws).length + 1 = policy.attemptCount := by
  have hpos : 0 < policy.attemptCount := Nat.lt_of_lt_of_le Nat.one_pos (Nat.le_max_right _ _)
  rw [length_delaySequence]
  omega

theorem RetryPolicy.whole_maxElapsed (policy : RetryPolicy) :
    ∀ most ∈ policy.maxElapsed, most.Whole := by
  intro most hmost
  obtain ⟨ms, -, rfl⟩ := Option.map_eq_some_iff.1 hmost
  exact ⟨_, rfl⟩

theorem Retries.exact {policy : RetryPolicy} {delays : List Duration} {isTransient : ε → Bool}
    {r : Retried ε α} (hdelays : delays.length + 1 = policy.attemptCount)
    (h : Retries policy.maxElapsed isTransient 0 .zero delays r.log r.result) :
    r.Exact policy delays isTransient := by
  have hpos : 0 < r.calls := h.length_pos
  have hle : r.calls ≤ policy.attemptCount := hdelays ▸ h.length_le
  obtain ⟨last, hlast, hconcludes⟩ := h.concludes
  rw [Nat.zero_add] at hconcludes
  have hunique : ∀ c ∈ r.log.getLast?, c = last := fun c hc => by simpa [hlast, eq_comm] using hc
  refine ⟨hdelays, hpos, hle, h.began_head, fun k c later => h.next, ?_, ?_, ?_⟩
  · intro c hc
    rw [hunique c hc]
    exact hconcludes.result_eq
  · intro c hc
    have hlate : (∀ delay ∈ (delays.drop (r.log.length - 1)).head?,
        outOfTime policy.maxElapsed last.ended delay = true) ↔ _ :=
      forall_outOfTime_iff h.length_pos h.length_le
    rw [hunique c hc, hconcludes.exhausted_iff]
    rw [hdelays] at hlate
    exact and_congr_right fun _ => hlate
  · intro htook most hmost
    rw [hmost] at h
    exact h.began_le (policy.whole_maxElapsed most hmost) ⟨0, rfl⟩ (Nat.zero_le _) htook

theorem Thread.Turn.Follow.mapM_eq {β ι : Type} {op : ι → StateM σ β}
    {calls : List (Thread.Turn σ β)} {s last : σ} (h : Follow s calls last) {l : List ι}
    (hacts : calls.map act = l.map op) : l.mapM op s = (calls.map answer, last) := by
  induction calls generalizing s l with
  | nil =>
    obtain rfl := List.map_eq_nil_iff.1 hacts.symm
    obtain rfl : last = s := h
    rfl
  | cons c rest ih =>
    obtain ⟨i, l, rfl, hact, hrest⟩ := List.map_eq_cons_iff.1 hacts.symm
    obtain ⟨rfl, hfollow⟩ := h
    have hrest' := ih hfollow hrest.symm
    rw [List.mapM_cons, hact]
    change (c.answer :: (l.mapM op c.after).1, (l.mapM op c.after).2) = _
    rw [hrest']
    rfl

/-- Retrying makes the calls of its log, one after the other and no others, as exactly as its policy
says. -/
theorem retry_exact (policy : RetryPolicy) (draws : Draws) (isTransient : ε → Bool)
    (op : Nat → StateM σ (Timed (Except ε α))) (s : σ) :
    let (r, after) := retry policy draws isTransient op s
    r.Exact policy (policy.delaySequence draws) isTransient ∧
      (List.range r.calls).mapM op s = (r.log.map TimedCall.answer, after) := by
  obtain ⟨calls, hends, hfollow⟩ :=
    (retrying policy draws isTransient op).endsBy_run s
  obtain ⟨log, hlog, hretries, hanswers, hacts⟩ := retries_of_endsBy hends
  rw [List.nil_append] at hlog
  subst hlog
  refine ⟨hretries.exact (policy.length_delaySequence_add_one draws), ?_⟩
  rw [← hanswers]
  exact hfollow.mapM_eq (by rw [hacts, List.range_eq_range']; rfl)

end BenchCluster
