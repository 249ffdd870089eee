import Mathlib.Data.List.Find
import Mathlib.Data.List.Nodup
import BenchCluster.Proofs.Text.Overlap

/-! # Filling in placeholders in one pass

One pass from the left puts the value of its key in the place of every placeholder of a text and
does not look at what it has put in. Where the placeholders do not overlap, the order of the keys
does not matter to it.
-/

namespace BenchCluster.Text

/-- Goes through the characters, some of which are still to be skipped, because they belong to a
placeholder that has been filled in already. -/
def fillOnceFrom (values : List (String × String)) : Nat → List Char → List Char
  | _, [] => []
  | skip + 1, _ :: rest => fillOnceFrom values skip rest
  | 0, c :: rest =>
    match values.find? fun e => (hole e.1).isPrefixOf (c :: rest) with
    | some e => e.2.toList ++ fillOnceFrom values ((hole e.1).length - 1) rest
    | none => c :: fillOnceFrom values 0 rest

/-- Puts values in the place of the placeholders of a text, in one pass from the left. -/
def fillOnce (values : List (String × String)) (text : String) : String :=
  String.ofList (fillOnceFrom values 0 text.toList)

variable {values before order : List (String × String)} {keys : List String} {k v : String}
  {q s t : List Char}

/-! ## The steps of a pass -/

theorem toList_fillOnce (values : List (String × String)) (text : String) :
    (fillOnce values text).toList = fillOnceFrom values 0 text.toList :=
  String.toList_ofList

@[simp] theorem fillOnceFrom_nil (skip : Nat) : fillOnceFrom values skip [] = [] := by
  cases skip <;> rfl

theorem fillOnceFrom_skip (s : List Char) :
    fillOnceFrom values s.length (s ++ t) = fillOnceFrom values 0 t := by
  induction s with
  | nil => rfl
  | cons c rest ih => exact ih

theorem fillOnceFrom_char {c : Char} (h : ∀ e ∈ values, ¬ hole e.1 <+: c :: t) :
    fillOnceFrom values 0 (c :: t) = c :: fillOnceFrom values 0 t := by
  have hnone : values.find? (fun e => (hole e.1).isPrefixOf (c :: t)) = none := by
    rw [List.find?_eq_none]
    exact fun e he => by simpa [List.isPrefixOf_iff_prefix] using h e he
  rw [fillOnceFrom, hnone]

theorem fillOnceFrom_hole (hkeys : Unambiguous (values.map Prod.fst))
    (hnodup : (values.map Prod.fst).Nodup) (hmem : (k, v) ∈ values) :
    fillOnceFrom values 0 (hole k ++ t) = v.toList ++ fillOnceFrom values 0 t := by
  have hkey : ∀ e ∈ values, hole e.1 <+: hole k ++ t → e = (k, v) := by
    intro e he hfound
    have happart := hkeys k (List.mem_map_of_mem hmem) e.1 (List.mem_map_of_mem he)
    have hhole := (happart.eq_of_isPrefix List.suffix_rfl (hole_ne_nil k) hfound).2
    exact List.inj_on_of_nodup_map hnodup he hmem (hole_injective hhole).symm
  have hfind : values.find? (fun e => (hole e.1).isPrefixOf (hole k ++ t)) = some (k, v) := by
    cases hfound : values.find? fun e => (hole e.1).isPrefixOf (hole k ++ t) with
    | none =>
      have hnot := List.find?_eq_none.1 hfound _ hmem
      rw [List.isPrefixOf_iff_prefix] at hnot
      exact absurd (List.prefix_append _ t) hnot
    | some e =>
      have hprefix := List.find?_some hfound
      rw [List.isPrefixOf_iff_prefix] at hprefix
      rw [hkey e (List.mem_of_find?_eq_some hfound) hprefix]
  obtain ⟨c, rest, hword⟩ := List.exists_cons_of_ne_nil (hole_ne_nil k)
  rw [hword, List.cons_append] at hfind ⊢
  rw [fillOnceFrom, hfind]
  have hlength : (hole k).length - 1 = rest.length := by simp [hword]
  dsimp only
  rw [hlength, fillOnceFrom_skip]

theorem fillOnceFrom_word (h : ∀ e ∈ values, Apart q (hole e.1) ∧ q ≠ hole e.1) (hs : s <:+ q) :
    fillOnceFrom values 0 (s ++ t) = s ++ fillOnceFrom values 0 t := by
  induction s with
  | nil => rfl
  | cons c rest ih =>
    have hnot : ∀ e ∈ values, ¬ hole e.1 <+: c :: (rest ++ t) := fun e he hfound =>
      absurd ((h e he).1.eq_of_isPrefix hs (List.cons_ne_nil c rest) hfound).2 (h e he).2
    rw [List.cons_append, fillOnceFrom_char hnot, ih ((List.suffix_cons c rest).trans hs)]
    rfl

/-- What stands before a word that all placeholders are apart from is filled in on its own. -/
theorem fillOnceFrom_append (h : ∀ e ∈ values, Apart (hole e.1) q) {skip : Nat}
    (hskip : skip ≤ s.length) :
    fillOnceFrom values skip (s ++ (q ++ t)) =
      fillOnceFrom values skip s ++ fillOnceFrom values 0 (q ++ t) := by
  induction s generalizing skip with
  | nil =>
    obtain rfl : skip = 0 := Nat.le_zero.1 hskip
    rfl
  | cons c rest ih =>
    cases skip with
    | succ skip => exact ih (Nat.le_of_succ_le_succ hskip)
    | zero =>
      have hsame : values.find? (fun e => (hole e.1).isPrefixOf (c :: (rest ++ (q ++ t)))) =
          values.find? fun e => (hole e.1).isPrefixOf (c :: rest) := by
        refine List.find?_congr fun e he => ?_
        rw [Bool.eq_iff_iff, List.isPrefixOf_iff_prefix, List.isPrefixOf_iff_prefix]
        exact ⟨(h e he).prefix_of_append (List.cons_ne_nil c rest),
          fun hfound => hfound.trans (List.prefix_append _ _)⟩
      rw [List.cons_append, fillOnceFrom, hsame, fillOnceFrom]
      cases hfound : values.find? fun e => (hole e.1).isPrefixOf (c :: rest) with
      | none => exact congrArg (c :: ·) (ih (Nat.zero_le _))
      | some e =>
        have hprefix := List.find?_some hfound
        rw [List.isPrefixOf_iff_prefix] at hprefix
        have hlength := hprefix.length_le
        rw [List.length_cons] at hlength
        dsimp only
        rw [ih (by omega), List.append_assoc]

theorem fillOnceFrom_no_values (t : List Char) : fillOnceFrom [] 0 t = t := by
  induction t with
  | nil => rfl
  | cons c rest ih => rw [fillOnceFrom_char (by simp), ih]

/-! ## Texts as they are gone through -/

/-- A text as placeholders of keys and other characters that none of these begin at. -/
inductive Scanned (keys : List String) : List Char → Prop
  | done : Scanned keys []
  | hole {key : String} {t : List Char} (mem : key ∈ keys) (rest : Scanned keys t) :
    Scanned keys (hole key ++ t)
  | char {c : Char} {t : List Char} (other : ∀ key ∈ keys, ¬ Text.hole key <+: c :: t)
    (rest : Scanned keys t) : Scanned keys (c :: t)

theorem scanned (keys : List String) (t : List Char) : Scanned keys t := by
  induction h : t.length using Nat.strong_induction_on generalizing t with
  | _ n ih =>
    cases t with
    | nil => exact .done
    | cons c rest =>
      by_cases hfound : ∃ key ∈ keys, hole key <+: c :: rest
      · obtain ⟨key, hkey, after, hafter⟩ := hfound
        have hlength := congrArg List.length hafter
        have hpos := List.length_pos_of_ne_nil (hole_ne_nil key)
        rw [List.length_append] at hlength
        rw [← hafter]
        exact .hole hkey (ih after.length (by omega) after rfl)
      · exact .char (fun key hkey hprefix => hfound ⟨key, hkey, hprefix⟩)
          (ih rest.length (by simp [← h]) rest rfl)

/-- Values for some of the keys whose placeholders are told apart. -/
structure Keyed (keys : List String) (values : List (String × String)) : Prop where
  unambiguous : Unambiguous keys
  subset : values.map Prod.fst ⊆ keys
  nodup : (values.map Prod.fst).Nodup

namespace Keyed

theorem of_sublist (h : Keyed keys values) (hsub : before.Sublist values) : Keyed keys before :=
  ⟨h.unambiguous, fun _ hkey => h.subset ((hsub.map Prod.fst).subset hkey),
    h.nodup.sublist (hsub.map Prod.fst)⟩

theorem hole_mem (h : Keyed keys values) (hmem : (k, v) ∈ values) (t : List Char) :
    fillOnceFrom values 0 (hole k ++ t) = v.toList ++ fillOnceFrom values 0 t :=
  fillOnceFrom_hole (h.unambiguous.of_subset h.subset) h.nodup hmem

theorem hole_not_mem (h : Keyed keys values) (hk : k ∈ keys) (hnew : k ∉ values.map Prod.fst)
    (t : List Char) :
    fillOnceFrom values 0 (hole k ++ t) = hole k ++ fillOnceFrom values 0 t := by
  refine fillOnceFrom_word (fun e he => ?_) List.suffix_rfl
  have hkey : e.1 ∈ values.map Prod.fst := List.mem_map_of_mem he
  refine ⟨h.unambiguous k hk e.1 (h.subset hkey), fun heq => hnew ?_⟩
  rwa [hole_injective heq]

theorem char (h : Keyed keys values) {c : Char} (hother : ∀ key ∈ keys, ¬ hole key <+: c :: t) :
    fillOnceFrom values 0 (c :: t) = c :: fillOnceFrom values 0 t :=
  fillOnceFrom_char fun e he => hother e.1 (h.subset (List.mem_map_of_mem he))

theorem of_perm (h : Keyed keys values) (hperm : order.Perm values) : Keyed keys order :=
  ⟨h.unambiguous, fun _ hkey => h.subset ((hperm.map Prod.fst).subset hkey),
    (hperm.map Prod.fst).nodup_iff.2 h.nodup⟩

theorem fillOnceFrom_perm (h : Keyed keys values) (hperm : order.Perm values) (t : List Char) :
    fillOnceFrom order 0 t = fillOnceFrom values 0 t := by
  have horder := h.of_perm hperm
  induction scanned keys t with
  | done => rfl
  | @hole key t hkey rest ih =>
    by_cases hmem : key ∈ values.map Prod.fst
    · obtain ⟨⟨_, w⟩, he, rfl⟩ := List.mem_map.1 hmem
      rw [h.hole_mem he, horder.hole_mem (hperm.mem_iff.2 he), ih]
    · have hnot : key ∉ order.map Prod.fst := (hperm.map Prod.fst).mem_iff.not.2 hmem
      rw [h.hole_not_mem hkey hmem, horder.hole_not_mem hkey hnot, ih]
  | char hother rest ih => rw [h.char hother, horder.char hother, ih]

/-- The order of the keys does not matter to one pass. -/
theorem fillOnce_perm (h : Keyed keys values) (hperm : order.Perm values) (text : String) :
    fillOnce order text = fillOnce values text := by
  rw [fillOnce, fillOnce, h.fillOnceFrom_perm hperm]

end Keyed

end BenchCluster.Text
