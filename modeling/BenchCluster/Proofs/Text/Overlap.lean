import Mathlib.Data.List.Infix
import BenchCluster.Text.Split
import BenchCluster.Text.Substitution

/-! # Words that do not overlap

Two words are apart if they lie over each other in no text, other than as a word lies over itself.
Where a word is found in a text can then be told from the parts that the text is made of. The
placeholders of keys without braces are apart.
-/

namespace BenchCluster.Text

/-- No end of the first word lies over the second one, except as a word lies over itself. -/
def Apart (p q : List Char) : Prop :=
  ∀ s, s <:+ p → s ≠ [] → s <+: q ∨ q <+: s → s = p ∧ p = q

/-- At how many places of a text a word is found. -/
def occurrences (p text : List Char) : Nat := text.tails.countP p.isPrefixOf

variable {p q s t : List Char}

theorem Apart.eq_of_isPrefix (h : Apart p q) (hs : s <:+ p) (hne : s ≠ [])
    (hq : q <+: s ++ t) : s = p ∧ p = q :=
  h s hs hne (List.prefix_or_prefix_of_prefix (List.prefix_append s t) hq)

/-- A word that is found in front of a word that it is apart from does not reach into that. -/
theorem Apart.prefix_of_append (h : Apart p q) (hne : s ≠ []) (hp : p <+: s ++ (q ++ t)) :
    p <+: s := by
  rcases List.prefix_or_prefix_of_prefix hp (List.prefix_append s _) with hshort | ⟨extra, rfl⟩
  · exact hshort
  by_cases hextra : extra = []
  · simp [hextra]
  have hq : extra <+: q ++ t := (List.prefix_append_right_inj s).1 hp
  have hself := (h extra (List.suffix_append s extra) hextra
    (List.prefix_or_prefix_of_prefix hq (List.prefix_append q t))).1
  exact absurd (List.self_eq_append_left.1 hself) hne

/-! ## Counting -/

theorem occurrences_nil (hp : p ≠ []) : occurrences p [] = 0 := by
  cases p with
  | nil => exact absurd rfl hp
  | cons c rest => rfl

theorem occurrences_cons (c : Char) :
    occurrences p (c :: t) = occurrences p t + if p <+: c :: t then 1 else 0 := by
  simp [occurrences, List.countP_cons, List.isPrefixOf_iff_prefix]

theorem occurrences_cons_of_not_isPrefix {c : Char} (h : ¬ p <+: c :: t) :
    occurrences p (c :: t) = occurrences p t := by
  rw [occurrences_cons, if_neg h, Nat.add_zero]

theorem le_occurrences_append (hp : p ≠ []) :
    occurrences p s + occurrences p t ≤ occurrences p (s ++ t) := by
  induction s with
  | nil => simp [occurrences_nil hp]
  | cons c rest ih =>
    rw [List.cons_append, occurrences_cons, occurrences_cons]
    have hfound : p <+: c :: rest → p <+: c :: (rest ++ t) := fun h =>
      h.trans (List.prefix_append _ t)
    by_cases h : p <+: c :: rest
    · rw [if_pos h, if_pos (hfound h)]
      omega
    · rw [if_neg h]
      omega

/-- Putting something in between destroys nothing before and after it. -/
theorem le_occurrences_insert (hp : p ≠ []) (w : List Char) :
    occurrences p s + occurrences p t ≤ occurrences p (s ++ (w ++ t)) := by
  have hfirst := le_occurrences_append (s := s) (t := w ++ t) hp
  have hsecond := le_occurrences_append (s := w) (t := t) hp
  omega

/-- Nothing is found across the beginning of a word that the one that is counted is apart from. -/
theorem occurrences_append (hp : p ≠ []) (h : Apart p q) :
    occurrences p (s ++ (q ++ t)) = occurrences p s + occurrences p (q ++ t) := by
  induction s with
  | nil => simp [occurrences_nil hp]
  | cons c rest ih =>
    have hfound : p <+: c :: (rest ++ (q ++ t)) ↔ p <+: c :: rest :=
      ⟨h.prefix_of_append (List.cons_ne_nil c rest), fun hp => hp.trans (List.prefix_append _ _)⟩
    rw [List.cons_append, occurrences_cons, occurrences_cons, ih]
    simp only [hfound]
    omega

theorem occurrences_suffix_append (h : Apart q p) (hs : s <:+ q) (hne : s ≠ q ∨ q ≠ p) :
    occurrences p (s ++ t) = occurrences p t := by
  induction s with
  | nil => rfl
  | cons c rest ih =>
    have hnot : ¬ p <+: c :: rest ++ t := fun hp =>
      have ⟨hself, heq⟩ := h.eq_of_isPrefix hs (List.cons_ne_nil c rest) hp
      hne.elim (absurd hself) (absurd heq)
    have hrest : rest ≠ q := fun heq =>
      absurd hs.length_le (by simp [heq])
    rw [List.cons_append, occurrences_cons_of_not_isPrefix (by simpa using hnot)]
    exact ih ((List.suffix_cons c rest).trans hs) (.inl hrest)

theorem occurrences_word_append (hq : q ≠ []) (h : Apart q p) :
    occurrences p (q ++ t) = (if q = p then 1 else 0) + occurrences p t := by
  by_cases heq : q = p
  · subst heq
    obtain ⟨c, rest, rfl⟩ := List.exists_cons_of_ne_nil hq
    have hrest : occurrences (c :: rest) (rest ++ t) = occurrences (c :: rest) t :=
      occurrences_suffix_append h (List.suffix_cons c rest) (.inl (by simp))
    have hfound : c :: rest <+: c :: (rest ++ t) := List.prefix_append (c :: rest) t
    rw [if_pos rfl, List.cons_append, occurrences_cons, hrest, if_pos hfound, Nat.add_comm]
  · rw [if_neg heq, Nat.zero_add]
    exact occurrences_suffix_append h List.suffix_rfl (.inr heq)

theorem occurrences_append_self (hp : p ≠ []) (h : Apart p p) :
    occurrences p (s ++ (p ++ t)) = occurrences p s + 1 + occurrences p t := by
  rw [occurrences_append hp h, occurrences_word_append hp h, if_pos rfl, Nat.add_assoc]

theorem occursIn_eq_true_iff (hp : p ≠ []) : occursIn p t = true ↔ occurrences p t ≠ 0 := by
  induction t with
  | nil => simp [occursIn, occurrences_nil hp, hp]
  | cons c rest ih =>
    rw [occursIn, Bool.or_eq_true, ih, occurrences_cons, List.isPrefixOf_iff_prefix]
    by_cases h : p <+: c :: rest <;> simp [h]

/-! ## Placeholders -/

def hole (key : String) : List Char := (placeholder key).toList

theorem hole_eq (key : String) : hole key = '\x7b' :: (key.toList ++ ['\x7d']) := by
  simp [hole, placeholder]

theorem hole_ne_nil (key : String) : hole key ≠ [] := by
  simp [hole_eq]

theorem hole_injective {k k' : String} (h : hole k = hole k') : k = k' := by
  simpa [hole_eq, String.toList_inj] using h

/-- The placeholders of these keys do not overlap, so that a text has them in one way only. -/
def Unambiguous (keys : List String) : Prop :=
  ∀ k ∈ keys, ∀ k' ∈ keys, Apart (hole k) (hole k')

theorem Unambiguous.of_subset {keys more : List String} (h : Unambiguous more)
    (hsub : keys ⊆ more) : Unambiguous keys :=
  fun k hk k' hk' => h k (hsub hk) k' (hsub hk')

theorem eq_of_prefix_concat {a b : List Char} {mark : Char} (ha : mark ∉ a) (hb : mark ∉ b)
    (h : a ++ [mark] <+: b ++ [mark]) : a = b := by
  obtain ⟨rest, h⟩ := h
  rw [List.append_assoc, List.singleton_append, List.append_eq_append_iff] at h
  rcases h with ⟨between, rfl, h⟩ | ⟨between, rfl, h⟩ <;> cases between <;> simp_all

theorem apart_hole {k k' : String} (hopen : '\x7b' ∉ k.toList) (hclose : '\x7d' ∉ k.toList)
    (hclose' : '\x7d' ∉ k'.toList) : Apart (hole k) (hole k') := by
  intro s hs hne hover
  obtain ⟨c, rest, rfl⟩ := List.exists_cons_of_ne_nil hne
  rw [hole_eq, hole_eq] at *
  have hc : c = '\x7b' := by
    rcases hover with h | h
    · exact (List.cons_prefix_cons.1 h).1
    · exact (List.cons_prefix_cons.1 h).1.symm
  rcases List.suffix_cons_iff.1 hs with hself | hinner
  · refine ⟨hself, ?_⟩
    have hkeys : k.toList = k'.toList := by
      rw [hself] at hover
      rcases hover with h | h
      · exact eq_of_prefix_concat hclose hclose' (List.cons_prefix_cons.1 h).2
      · exact (eq_of_prefix_concat hclose' hclose (List.cons_prefix_cons.1 h).2).symm
    rw [hkeys]
  · have hmem : c ∈ k.toList ++ ['\x7d'] := hinner.subset List.mem_cons_self
    rw [hc, List.mem_append] at hmem
    rcases hmem with hmem | hmem
    · exact absurd hmem hopen
    · simp at hmem

/-- Keys without braces have placeholders that do not overlap. -/
theorem unambiguous_of_no_braces {keys : List String}
    (h : ∀ k ∈ keys, '\x7b' ∉ k.toList ∧ '\x7d' ∉ k.toList) : Unambiguous keys :=
  fun k hk k' hk' => apart_hole (h k hk).1 (h k hk).2 (h k' hk').2

end BenchCluster.Text
