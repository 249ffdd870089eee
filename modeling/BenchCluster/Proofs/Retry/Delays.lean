import Mathlib
import BenchCluster.Retry.Policy

/-! # Growing delays

Exponential delays without randomness. Each one is the one before, multiplied, but at most the
maximum. The first one is not held to the maximum, so it alone can exceed it.
-/

namespace BenchCluster

def Draws.InRange (draws : Draws) : Prop := ∀ i, 0 ≤ draws.draw i ∧ draws.draw i < 1

namespace Delays

variable {maximum count current : Nat} {q : ℚ}

theorem grow_eq (hq : 1 ≤ q) (maximum current : Nat) :
    grow maximum (.finite q) current = min maximum ⌊q * current⌋₊ := by
  have hpos : 0 < q := lt_of_lt_of_le zero_lt_one hq
  have hfloor : (current * q).floor.toNat = ⌊q * current⌋₊ := by
    rw [mul_comm]
    rfl
  rw [grow, if_pos hpos, hfloor]
  split
  case isTrue h => exact (min_eq_left (Nat.le_floor (by rwa [mul_comm]))).symm
  case isFalse h =>
    rw [mul_comm] at h
    refine (min_eq_right ?_).symm
    exact Nat.floor_le_of_le (not_le.1 h).le

theorem scatter_spread_zero {draw : ℚ} (h : 0 ≤ draw ∧ draw < 1) (interval : Nat) :
    scatter (spread (.finite 0)) draw interval = interval := by
  have hspread : spread (.finite 0) = 0 := by simp [spread]
  have hplace : (interval : ℚ) * (1 - 0) + draw * (2 * 0 * interval + 1) = interval + draw := by
    ring
  rw [scatter, hspread, hplace]
  change ⌊(interval + draw : ℚ)⌋₊ = interval
  rw [Nat.floor_eq_iff (by linarith [h.1, (Nat.cast_nonneg interval : (0 : ℚ) ≤ interval)])]
  exact ⟨le_add_of_nonneg_right h.1, by linarith [h.2]⟩

theorem sequence_exponential {draws : Draws} (hdraws : draws.InRange) (count : Nat)
    (initialMs maxMs : UInt64) (multiplier : Number) :
    (exponential initialMs maxMs multiplier (.finite 0)).sequence draws count =
      (intervals (maxMs.toNat * 1000000) multiplier count (initialMs.toNat * 1000000)).map
        Duration.mk := by
  rw [sequence]
  refine List.ext_getElem (by simp) fun i _ _ => ?_
  simp [scatter_spread_zero (hdraws i)]

/-! ## The intervals -/

/-- Each interval grows out of the one before. -/
theorem isChain_intervals (maximum : Nat) (multiplier : Number) (count current : Nat) :
    (intervals maximum multiplier count current).IsChain
      fun before after => after = grow maximum multiplier before := by
  induction count generalizing current with
  | zero => exact .nil
  | succ count ih =>
    cases count with
    | zero => exact .singleton _
    | succ count => exact .cons_cons rfl (ih _)

/-- From an interval that is within the maximum all later ones stay within it, and none is shorter
than the one before. -/
theorem intervals_of_le (hq : 1 ≤ q) (h : current ≤ maximum) (count : Nat) :
    (∀ interval ∈ intervals maximum (.finite q) count current,
      current ≤ interval ∧ interval ≤ maximum) ∧
    (intervals maximum (.finite q) count current).Pairwise (· ≤ ·) := by
  -- Being within the maximum is kept by every step, and there a step does not shorten.
  induction count generalizing current with
  | zero => simp [intervals]
  | succ count ih =>
    have hgrown : current ≤ grow maximum (.finite q) current := by
      rw [grow_eq hq]
      refine le_min h (Nat.le_floor ?_)
      exact le_mul_of_one_le_left (Nat.cast_nonneg current) hq
    have hcap : grow maximum (.finite q) current ≤ maximum := by
      rw [grow_eq hq]
      exact min_le_left _ _
    obtain ⟨hrest, hsorted⟩ := ih hcap
    have hlater : ∀ interval ∈ intervals maximum (.finite q) count
        (grow maximum (.finite q) current), current ≤ interval := fun interval hmem =>
      hgrown.trans (hrest interval hmem).1
    rw [intervals, List.forall_mem_cons, List.pairwise_cons]
    exact ⟨⟨⟨le_rfl, h⟩, fun interval hmem => ⟨hlater interval hmem, (hrest interval hmem).2⟩⟩,
      hlater, hsorted⟩

/-- After an interval that reaches the maximum there is only the maximum. -/
theorem intervals_of_ge (hq : 1 ≤ q) (h : maximum ≤ current) (count : Nat) :
    intervals maximum (.finite q) (count + 1) current =
      current :: List.replicate count maximum := by
  induction count generalizing current with
  | zero => rfl
  | succ count ih =>
    have hgrown : grow maximum (.finite q) current = maximum := by
      rw [grow_eq hq]
      refine min_eq_left (h.trans (Nat.le_floor ?_))
      exact le_mul_of_one_le_left (Nat.cast_nonneg current) hq
    rw [intervals, hgrown, ih le_rfl, List.replicate_succ]

theorem forall_intervals_le_iff (hq : 1 ≤ q) :
    (∀ interval ∈ intervals maximum (.finite q) count current, interval ≤ maximum) ↔
      current ≤ maximum ∨ count = 0 := by
  cases count with
  | zero => simp [intervals]
  | succ count =>
    rw [or_iff_left (Nat.succ_ne_zero count)]
    constructor
    · exact fun hall => hall current List.mem_cons_self
    · exact fun h interval hmem => ((intervals_of_le hq h _).1 interval hmem).2

theorem pairwise_intervals_iff (hq : 1 ≤ q) :
    (intervals maximum (.finite q) count current).Pairwise (· ≤ ·) ↔
      current ≤ maximum ∨ count ≤ 1 := by
  rcases Nat.le_total current maximum with h | h
  · simp [h, (intervals_of_le hq h count).2]
  · cases count with
    | zero => simp [intervals]
    | succ count =>
      rw [intervals_of_ge hq h, List.pairwise_cons]
      cases count with
      | zero => simp
      | succ count => simp +contextual [List.replicate_succ]

end Delays

/-- Without randomness the first delay is the initial one, and each delay after it is the one
before, multiplied, but at most the maximum. The delays stay within the maximum, and they never
become shorter, exactly if the initial delay does not exceed the maximum, or if there are too few of
them to tell; else all but the first one are the maximum. -/
theorem exponential_delays_capped_iff (p : RetryPolicy) {initialMs maxMs : UInt64} {q : ℚ}
    {draws : Draws} (hp : p.delays = .exponential initialMs maxMs (.finite q) (.finite 0))
    (hq : 1 ≤ q) (hdraws : draws.InRange) :
    let delays := p.delaySequence draws
    delays.length = max p.attempts.toNat 1 - 1 ∧
      (∀ first ∈ delays.head?, first = .ofMillis initialMs.toNat) ∧
      (delays.IsChain fun before after =>
        after = min (.ofMillis maxMs.toNat) ⟨⌊q * before.nanoseconds⌋₊⟩) ∧
      ((∀ delay ∈ delays, delay ≤ .ofMillis maxMs.toNat) ↔
        initialMs ≤ maxMs ∨ p.attempts.toNat ≤ 1) ∧
      (delays.Pairwise (· ≤ ·) ↔ initialMs ≤ maxMs ∨ p.attempts.toNat ≤ 2) ∧
      (maxMs < initialMs → ∀ delay ∈ delays.tail, delay = .ofMillis maxMs.toNat) := by
  have hsequence : p.delaySequence draws =
      (Delays.intervals (maxMs.toNat * 1000000) (.finite q) (p.attemptCount - 1)
        (initialMs.toNat * 1000000)).map Duration.mk := by
    rw [RetryPolicy.delaySequence, hp, Delays.sequence_exponential hdraws]
  have hle : initialMs.toNat * 1000000 ≤ maxMs.toNat * 1000000 ↔ initialMs ≤ maxMs := by
    rw [UInt64.le_iff_toNat_le]
    omega
  have hcount : p.attemptCount = max p.attempts.toNat 1 := rfl
  refine ⟨p.length_delaySequence draws, ?_, ?_, ?_, ?_, ?_⟩
  all_goals rw [hsequence]
  · cases p.attemptCount - 1 with
    | zero => simp [Delays.intervals]
    | succ count => simp [Delays.intervals, Duration.ofMillis]
  · rw [List.isChain_map]
    refine (Delays.isChain_intervals _ _ _ _).imp fun before after h => ?_
    rw [h, Delays.grow_eq hq]
    rfl
  · rw [← hle, List.forall_mem_map]
    refine (Delays.forall_intervals_le_iff hq).trans (or_congr_right ?_)
    omega
  · rw [← hle, List.pairwise_map]
    refine (Delays.pairwise_intervals_iff hq).trans (or_congr_right ?_)
    omega
  · intro h
    have hge : maxMs.toNat * 1000000 ≤ initialMs.toNat * 1000000 :=
      Nat.mul_le_mul_right _ (UInt64.lt_iff_toNat_lt.1 h).le
    cases p.attemptCount - 1 with
    | zero => simp [Delays.intervals]
    | succ count =>
      rw [Delays.intervals_of_ge hq hge]
      simp [Duration.ofMillis]

def RetryPolicy.sampleAboveMaximum : RetryPolicy :=
  { attempts := 4, delays := .exponential 2000 1000 (.finite 2) (.finite 0) }

theorem RetryPolicy.sample_shrinks :
    sampleAboveMaximum.delaySequence .zero = [.ofMillis 2000, .ofMillis 1000, .ofMillis 1000] ∧
      ¬(∀ delay ∈ sampleAboveMaximum.delaySequence .zero, delay ≤ .ofMillis 1000) ∧
      ¬(sampleAboveMaximum.delaySequence .zero).Pairwise (· ≤ ·) := by
  have hdraws : Draws.zero.InRange := fun _ => ⟨le_rfl, zero_lt_one⟩
  obtain ⟨-, -, -, hcapped, hsorted, -⟩ :=
    exponential_delays_capped_iff sampleAboveMaximum rfl (by norm_num) hdraws
  refine ⟨by decide +kernel, fun h => ?_, fun h => ?_⟩
  · exact absurd (hcapped.1 h) (by decide)
  · exact absurd (hsorted.1 h) (by decide)

end BenchCluster
