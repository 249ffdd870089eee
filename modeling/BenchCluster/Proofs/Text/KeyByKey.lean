import Mathlib.Data.List.Induction
import Mathlib.Tactic.LinearCombination
import Mathlib.Tactic.Zify
import BenchCluster.Proofs.Text.OnePass

/-! # Filling in key after key

The placeholders of one key after the other are replaced in all of the text, also in what has been
put in for other keys. This gives the same as one pass at every stage exactly if each key finds no
other placeholders of its own than the text has had from the beginning. If no placeholder is left
after one pass, the keys may be filled in in any order.
-/

namespace BenchCluster.Text

/-- Every key finds no other placeholders of its own, after those before it have been filled in,
than the text has had from the beginning. A key whose value is its placeholder changes nothing. -/
def FindsOwnOnly (values : List (String × String)) (text : String) : Prop :=
  ∀ before key value, before ++ [(key, value)] <+: values → value = placeholder key ∨
    occurrences (hole key) (fillOnce before text).toList = occurrences (hole key) text.toList

/-- The keys, and any number of the first of them, are filled in as by one pass. -/
def FilledInOnePass (values : List (String × String)) (text : String) : Prop :=
  ∀ before, before <+: values → fill before text = fillOnce before text

variable {values before order : List (String × String)} {keys : List String} {k v : String}
  {t : List Char}

/-! ## Replacing as a pass with one key -/

theorem replaceFrom_hole (skip : Nat) (t : List Char) :
    replaceFrom (hole k) v.toList skip t = fillOnceFrom [(k, v)] skip t := by
  induction t generalizing skip with
  | nil => simp
  | cons c rest ih =>
    cases skip with
    | succ skip => exact ih skip
    | zero =>
      rw [replaceFrom, fillOnceFrom, List.find?_singleton]
      dsimp only
      split <;> rw [ih]

theorem fill_concat (text : String) :
    (fill (before ++ [(k, v)]) text).toList =
      fillOnceFrom [(k, v)] 0 (fill before text).toList := by
  rw [fill_append, fill_cons, fill_nil, replace, String.toList_ofList]
  exact replaceFrom_hole 0 _

/-! ## Exchanging the placeholders of one key -/

/-- The second text is the first with a number of placeholders of the key exchanged for the value;
all else, whatever it is, stays. -/
inductive Exchanged (k v : String) : Nat → List Char → List Char → Prop
  | done : Exchanged k v 0 [] []
  | own {n : Nat} {x y : List Char} (rest : Exchanged k v n x y) :
    Exchanged k v (n + 1) (hole k ++ x) (v.toList ++ y)
  | other {n : Nat} {x y : List Char} (w : List Char) (rest : Exchanged k v n x y) :
    Exchanged k v n (w ++ x) (w ++ y)

/-- A pass with one key more exchanges just the placeholders of this key that the text has. -/
theorem Keyed.exchanged (h : Keyed keys (before ++ [(k, v)])) (t : List Char) :
    Exchanged k v (occurrences (hole k) t) (fillOnceFrom before 0 t)
      (fillOnceFrom (before ++ [(k, v)]) 0 t) := by
  have hbefore : Keyed keys before := h.of_sublist (List.sublist_append_left before _)
  have hk : k ∈ keys := h.subset (by simp)
  have hnew : k ∉ before.map Prod.fst := by
    have hnodup := h.nodup
    rw [List.map_append, List.map_singleton, List.nodup_append] at hnodup
    exact fun hmem => hnodup.2.2 k hmem k (List.mem_singleton_self k) rfl
  induction scanned keys t with
  | done =>
    rw [occurrences_nil (hole_ne_nil k)]
    exact .done
  | @hole key t hkey rest ih =>
    rw [occurrences_word_append (hole_ne_nil key) (h.unambiguous key hkey k hk)]
    by_cases heq : key = k
    · subst heq
      rw [if_pos rfl, Nat.add_comm, hbefore.hole_not_mem hk hnew, h.hole_mem (v := v) (by simp)]
      exact .own ih
    · rw [if_neg fun hhole => heq (hole_injective hhole), Nat.zero_add]
      by_cases hmem : key ∈ before.map Prod.fst
      · obtain ⟨⟨_, w⟩, he, rfl⟩ := List.mem_map.1 hmem
        rw [hbefore.hole_mem he, h.hole_mem (List.mem_append_left _ he)]
        exact .other _ ih
      · rw [hbefore.hole_not_mem hkey hmem, h.hole_not_mem hkey (by simp_all)]
        exact .other _ ih
  | @char c t hother rest ih =>
    rw [occurrences_cons_of_not_isPrefix (hother k hk), hbefore.char hother, h.char hother]
    exact .other [c] ih

theorem fillOnceFrom_of_not_found (h : occurrences (hole k) t = 0) :
    fillOnceFrom [(k, v)] 0 t = t := by
  induction t with
  | nil => rfl
  | cons c rest ih =>
    rw [occurrences_cons] at h
    by_cases hfound : hole k <+: c :: rest
    · simp [hfound] at h
    · rw [fillOnceFrom_char (by simpa using hfound), ih (by omega)]

theorem keyed_singleton (hself : Apart (hole k) (hole k)) : Keyed [k] [(k, v)] :=
  ⟨by simpa [Unambiguous] using hself, by simp, by simp⟩

theorem fillOnceFrom_append_hole (hself : Apart (hole k) (hole k)) (g t : List Char) :
    fillOnceFrom [(k, v)] 0 (g ++ (hole k ++ t)) =
      fillOnceFrom [(k, v)] 0 g ++ (v.toList ++ fillOnceFrom [(k, v)] 0 t) := by
  rw [fillOnceFrom_append (by simpa using hself) (Nat.zero_le _),
    (keyed_singleton hself).hole_mem (List.mem_singleton_self _)]

theorem exchanged_replaced (hself : Apart (hole k) (hole k)) (t : List Char) :
    Exchanged k v (occurrences (hole k) t) t (fillOnceFrom [(k, v)] 0 t) := by
  have hkeyed : Keyed [k] ([] ++ [(k, v)]) := keyed_singleton hself
  have h := hkeyed.exchanged t
  rwa [fillOnceFrom_no_values] at h

namespace Exchanged

variable {n : Nat} {x y : List Char}

theorem le_occurrences (h : Exchanged k v n x y) (hself : Apart (hole k) (hole k))
    (g : List Char) : n ≤ occurrences (hole k) (g ++ x) := by
  induction h generalizing g with
  | done => exact Nat.zero_le _
  | @own n x y rest ih =>
    have hrest := ih []
    rw [List.nil_append] at hrest
    rw [occurrences_append_self (hole_ne_nil k) hself]
    omega
  | other w rest ih =>
    rw [← List.append_assoc]
    exact ih (g ++ w)

/-- Where a key finds no other placeholders than those exchanged, replacing exchanges just these. -/
theorem fillOnceFrom_eq (h : Exchanged k v n x y) (hself : Apart (hole k) (hole k)) (g : List Char)
    (hn : occurrences (hole k) (g ++ x) = n) : fillOnceFrom [(k, v)] 0 (g ++ x) = g ++ y := by
  -- A placeholder may begin in a part that stays, so these parts are gathered in `g` up to the next
  -- one that is exchanged.
  induction h generalizing g with
  | done => rw [fillOnceFrom_of_not_found hn]
  | @own n x y rest ih =>
    rw [occurrences_append_self (hole_ne_nil k) hself] at hn
    have hle := rest.le_occurrences hself []
    rw [List.nil_append] at hle
    rw [fillOnceFrom_append_hole hself, fillOnceFrom_of_not_found (by omega)]
    exact congrArg (fun rest => g ++ (v.toList ++ rest)) (ih [] (by rw [List.nil_append]; omega))
  | other w rest ih =>
    rw [← List.append_assoc, ← List.append_assoc]
    exact ih (g ++ w) (by rwa [List.append_assoc])

theorem length_add (h : Exchanged k v n x y) :
    y.length + n * (hole k).length = x.length + n * v.toList.length := by
  induction h with
  | done => simp
  | own rest ih =>
    simp only [List.length_append, Nat.succ_mul]
    omega
  | other w rest ih =>
    simp only [List.length_append]
    omega

theorem eq_zero_of_eq (h : Exchanged k v n x y) (hxy : x = y) (hv : v ≠ placeholder k)
    (hlength : v.toList.length = (hole k).length) : n = 0 := by
  induction h with
  | done => rfl
  | own rest ih =>
    have hword := (List.append_inj hxy hlength.symm).1
    exact absurd (String.toList_inj.1 hword).symm hv
  | other w rest ih => exact ih (List.append_cancel_left hxy)

theorem occurrences_eq_of_length_eq (h : Exchanged k v n x y) (hself : Apart (hole k) (hole k))
    (hv : v ≠ placeholder k) (hlength : v.toList.length = (hole k).length) (g : List Char)
    (heq : fillOnceFrom [(k, v)] 0 (g ++ x) = g ++ y) : occurrences (hole k) (g ++ x) = n := by
  have hnone : ∀ g, fillOnceFrom [(k, v)] 0 g = g → occurrences (hole k) g = 0 := fun g hg =>
    (exchanged_replaced hself g).eq_zero_of_eq hg.symm hv hlength
  induction h generalizing g with
  | done =>
    rw [List.append_nil] at heq ⊢
    exact hnone g heq
  | @own n x y rest ih =>
    have hg := (exchanged_replaced (v := v) hself g).length_add
    rw [hlength] at hg
    rw [fillOnceFrom_append_hole hself] at heq
    obtain ⟨hfirst, hsecond⟩ := List.append_inj heq (by omega)
    have hrest := ih [] (List.append_cancel_left hsecond)
    rw [List.nil_append] at hrest
    rw [occurrences_append_self (hole_ne_nil k) hself, hnone g hfirst, hrest]
    omega
  | other w rest ih =>
    rw [← List.append_assoc] at heq ⊢
    rw [← List.append_assoc] at heq
    exact ih (g ++ w) heq

/-- If replacing exchanges just these placeholders, the key finds no others. -/
theorem occurrences_eq (h : Exchanged k v n x y) (hself : Apart (hole k) (hole k))
    (hv : v ≠ placeholder k) (g : List Char)
    (heq : fillOnceFrom [(k, v)] 0 (g ++ x) = g ++ y) : occurrences (hole k) (g ++ x) = n := by
  -- The lengths tell how many placeholders are replaced, unless a value is as long as one.
  by_cases hlength : v.toList.length = (hole k).length
  · exact h.occurrences_eq_of_length_eq hself hv hlength g heq
  · have hwhole := (exchanged_replaced (v := v) hself (g ++ x)).length_add
    have hpart := h.length_add
    rw [heq, List.length_append, List.length_append] at hwhole
    have hproduct : ((occurrences (hole k) (g ++ x) : ℤ) - n) *
        ((hole k).length - v.toList.length) = 0 := by
      zify at hwhole hpart
      linear_combination hwhole - hpart
    rcases mul_eq_zero.1 hproduct with hcount | hsame <;> omega

theorem eq_of_self (h : Exchanged k (placeholder k) n x y) : y = x := by
  induction h with
  | done => rfl
  | own rest ih => rw [ih]; rfl
  | other w rest ih => rw [ih]

theorem occurrences_le_add (h : Exchanged k v n x y) (hself : Apart (hole k) (hole k))
    (g : List Char) : occurrences (hole k) (g ++ x) ≤ n + occurrences (hole k) (g ++ y) := by
  induction h generalizing g with
  | done => exact Nat.le_add_left _ _
  | @own n x y rest ih =>
    have hrest := ih []
    have hkept := le_occurrences_insert (s := g) (t := y) (hole_ne_nil k) v.toList
    simp only [List.nil_append] at hrest
    rw [occurrences_append_self (hole_ne_nil k) hself]
    omega
  | other w rest ih =>
    rw [← List.append_assoc, ← List.append_assoc]
    exact ih (g ++ w)

/-- Exchanging the placeholders of one key destroys none of another key. -/
theorem occurrences_le (h : Exchanged k v n x y) {key : String} (hne : k ≠ key)
    (hover : Apart (hole key) (hole k)) (hunder : Apart (hole k) (hole key)) (g : List Char) :
    occurrences (hole key) (g ++ x) ≤ occurrences (hole key) (g ++ y) := by
  induction h generalizing g with
  | done => exact Nat.le_refl _
  | @own n x y rest ih =>
    have hrest := ih []
    have hkept := le_occurrences_insert (s := g) (t := y) (hole_ne_nil key) v.toList
    simp only [List.nil_append] at hrest
    rw [occurrences_append (hole_ne_nil key) hover, occurrences_word_append (hole_ne_nil k) hunder,
      if_neg fun hhole => hne (hole_injective hhole)]
    omega
  | other w rest ih =>
    rw [← List.append_assoc, ← List.append_assoc]
    exact ih (g ++ w)

end Exchanged

/-! ## Key after key -/

namespace Keyed

/-- Where all keys before have been filled in as by one pass, so is the next one just if it finds
no other placeholders than the text has had. -/
theorem fill_concat_eq_iff (h : Keyed keys (before ++ [(k, v)])) (text : String)
    (hbefore : fill before text = fillOnce before text) :
    fill (before ++ [(k, v)]) text = fillOnce (before ++ [(k, v)]) text ↔
      v = placeholder k ∨
        occurrences (hole k) (fillOnce before text).toList = occurrences (hole k) text.toList := by
  have hk : k ∈ keys := h.subset (by simp)
  have hself := h.unambiguous k hk k hk
  have hstep := h.exchanged text.toList
  rw [← String.toList_inj, fill_concat, hbefore, toList_fillOnce, toList_fillOnce]
  constructor
  · intro heq
    by_cases hv : v = placeholder k
    · exact .inl hv
    · exact .inr (hstep.occurrences_eq hself hv [] heq)
  · rintro (rfl | hown)
    · rw [hstep.eq_of_self, (exchanged_replaced hself _).eq_of_self]
    · exact hstep.fillOnceFrom_eq hself [] hown

theorem filledInOnePass_iff (h : Keyed keys values) (text : String) :
    FilledInOnePass values text ↔ FindsOwnOnly values text := by
  constructor
  · intro hfilled before key value hprefix
    have hbefore := hfilled before ((List.prefix_append before _).trans hprefix)
    exact ((h.of_sublist hprefix.sublist).fill_concat_eq_iff text hbefore).1 (hfilled _ hprefix)
  · intro hown before hprefix
    induction before using List.reverseRecOn with
    | nil => rw [fill_nil, ← String.toList_inj, toList_fillOnce, fillOnceFrom_no_values]
    | append_singleton before e ih =>
      have hbefore := ih ((List.prefix_append before _).trans hprefix)
      exact ((h.of_sublist hprefix.sublist).fill_concat_eq_iff text hbefore).2
        (hown before e.1 e.2 hprefix)

/-! ## Keys in any order -/

theorem occurrences_fillOnceFrom_mono (hk : k ∈ keys) (hlater : k ∉ order.map Prod.fst)
    (h : Keyed keys (before ++ order)) (t : List Char) :
    occurrences (hole k) (fillOnceFrom before 0 t) ≤
      occurrences (hole k) (fillOnceFrom (before ++ order) 0 t) := by
  induction order generalizing before with
  | nil => rw [List.append_nil]
  | cons e rest ih =>
    rw [List.map_cons, List.mem_cons, not_or] at hlater
    rw [List.append_cons] at h ⊢
    have hstep : Keyed keys (before ++ [(e.1, e.2)]) :=
      h.of_sublist (List.sublist_append_left _ rest)
    have he : e.1 ∈ keys := hstep.subset (by simp)
    refine Nat.le_trans ?_ (ih hlater.2 h)
    exact (hstep.exchanged t).occurrences_le (Ne.symm hlater.1) (h.unambiguous k hk _ he)
      (h.unambiguous _ he k hk) []

/-- If no placeholder is found once all keys have been filled in by one pass, no key has found
others than the text has had. -/
theorem findsOwnOnly_of_none (h : Keyed keys values) {text : String}
    (hnone : ∀ e ∈ values, occurrences (hole e.1) (fillOnce values text).toList = 0) :
    FindsOwnOnly values text := by
  rintro before k v ⟨after, rfl⟩
  right
  have hstep : Keyed keys (before ++ [(k, v)]) := h.of_sublist (List.sublist_append_left _ after)
  have hk : k ∈ keys := hstep.subset (by simp)
  have hself := h.unambiguous k hk k hk
  have hlater : k ∉ after.map Prod.fst := by
    have hnodup := h.nodup
    rw [List.map_append, List.nodup_append] at hnodup
    exact fun hmem => hnodup.2.2 k (by simp) k hmem rfl
  have hend : occurrences (hole k) (fillOnce (before ++ [(k, v)] ++ after) text).toList = 0 :=
    hnone (k, v) (by simp)
  have hexchanged := hstep.exchanged text.toList
  have hfound := hexchanged.occurrences_le_add hself []
  have hkept := occurrences_fillOnceFrom_mono hk hlater h text.toList
  have hleast := hexchanged.le_occurrences hself []
  rw [toList_fillOnce] at hend ⊢
  simp only [List.nil_append] at hfound hleast
  omega

/-- Then the keys may be filled in in any order. -/
theorem fill_perm_eq_fillOnce (h : Keyed keys values) {text : String}
    (hnone : ∀ e ∈ values, occurrences (hole e.1) (fillOnce values text).toList = 0)
    (hperm : order.Perm values) : fill order text = fillOnce values text := by
  have horder := h.of_perm hperm
  have hsame := h.fillOnce_perm hperm text
  rw [← hsame]
  refine (horder.filledInOnePass_iff text).2 (horder.findsOwnOnly_of_none fun e he => ?_) order
    List.prefix_rfl
  rw [hsame]
  exact hnone e (hperm.mem_iff.1 he)

end Keyed

end BenchCluster.Text
