import Mathlib.Data.List.Basic
import BenchCluster.Text.Split

/-! # Splitting joined texts

Splitting a text at a separator splits each of the parts that it has been joined from. The last
occurrence of a separator divides a text in one way only.
-/

namespace BenchCluster.Text

theorem splitChars_eq_splitOn (sep : Char) (chars : List Char) :
    splitChars sep chars = chars.splitOn sep := by
  induction chars with
  | nil => simp [splitChars]
  | cons c rest ih =>
    rw [splitChars, ih, List.splitOn_cons_eq_if_modifyHead]
    cases hrest : rest.splitOn sep with
    | nil => exact absurd hrest (List.splitOn_ne_nil sep rest)
    | cons piece pieces => by_cases hc : c = sep <;> simp [hc]

theorem not_mem_of_mem_splitOn {sep : Char} {chars piece : List Char}
    (h : piece ∈ chars.splitOn sep) : sep ∉ piece := by
  induction chars generalizing piece with
  | nil => simp_all
  | cons c rest ih =>
    rw [List.splitOn_cons_eq_if_modifyHead] at h
    by_cases hc : c = sep
    · rw [if_pos (beq_iff_eq.2 hc)] at h
      rcases List.mem_cons.1 h with rfl | h
      · exact List.not_mem_nil
      · exact ih h
    · rw [if_neg (by simpa using hc)] at h
      cases hrest : rest.splitOn sep with
      | nil => exact absurd hrest (List.splitOn_ne_nil sep rest)
      | cons first pieces =>
        rw [hrest] at h ih
        rcases List.mem_cons.1 h with rfl | h
        · have hfirst := ih List.mem_cons_self
          simp [hfirst, Ne.symm hc]
        · exact ih (List.mem_cons_of_mem _ h)

theorem words_eq (sep : Char) (text : String) :
    words sep text = ((text.toList.splitOn sep).map String.ofList).filter (· ≠ "") := by
  rw [words, split, splitChars_eq_splitOn]

theorem words_of_not_mem {sep : Char} {text : String} (h : sep ∉ text.toList) :
    words sep text = if text = "" then [] else [text] := by
  rw [words_eq, List.splitOn_eq_singleton h, List.map_singleton, String.ofList_toList]
  by_cases hempty : text = "" <;> simp [hempty]

theorem words_append (sep : Char) (head tail : String) :
    words sep (head ++ String.ofList (sep :: tail.toList)) = words sep head ++ words sep tail := by
  have hchars : (head ++ String.ofList (sep :: tail.toList)).toList =
      head.toList ++ sep :: tail.toList := by simp
  rw [words_eq, hchars, List.splitOn_append_cons_self, List.map_append, List.filter_append,
    ← words_eq, ← words_eq]

/-- The words of texts that have been joined are those of the texts, whatever these hold. -/
theorem words_intercalate (sep : Char) (texts : List String) :
    words sep ((String.ofList [sep]).intercalate texts) = texts.flatMap (words sep) := by
  induction texts with
  | nil => simp [words_eq]
  | cons text rest ih =>
    cases rest with
    | nil => simp
    | cons next others =>
      have hjoined : (String.ofList [sep]).intercalate (text :: next :: others) =
          text ++ String.ofList
            (sep :: ((String.ofList [sep]).intercalate (next :: others)).toList) := by
        refine String.ext ?_
        simp [String.toList_intercalate]
      rw [hjoined, words_append, ih]
      exact List.flatMap_cons.symm

theorem not_mem_of_mem_words {sep : Char} {text word : String} (h : word ∈ words sep text) :
    sep ∉ word.toList := by
  rw [words_eq] at h
  obtain ⟨piece, hpiece, rfl⟩ := List.mem_map.1 (List.mem_filter.1 h).1
  rw [String.toList_ofList]
  exact not_mem_of_mem_splitOn hpiece

/-! ## The last occurrence of a separator -/

theorem splitAtLast_append {sep : Char} {head tail : String} (h : sep ∉ tail.toList) :
    splitAtLast sep (head ++ String.ofList (sep :: tail.toList)) = some (head, tail) := by
  have hchars : (head ++ String.ofList (sep :: tail.toList)).toList =
      head.toList ++ sep :: tail.toList := by simp
  have hreverse : (head.toList ++ sep :: tail.toList).reverse =
      tail.toList.reverse ++ sep :: head.toList.reverse := by simp
  have htail : ((head.toList ++ sep :: tail.toList).reverse.takeWhile (· ≠ sep)).reverse =
      tail.toList := by
    rw [hreverse, List.takeWhile_append_of_pos, List.takeWhile_cons_of_neg (by simp),
      List.append_nil, List.reverse_reverse]
    intro c hc
    rw [List.mem_reverse] at hc
    exact decide_eq_true fun he => h (he ▸ hc)
  rw [splitAtLast, hchars, htail, if_pos (by simp), List.length_append, List.length_cons]
  have hlength : head.toList.length + (tail.toList.length + 1) - tail.toList.length - 1 =
      head.toList.length := by omega
  rw [hlength, List.take_left, String.ofList_toList, String.ofList_toList]

theorem splitAtLast_eq_none_iff {sep : Char} {text : String} :
    splitAtLast sep text = none ↔ sep ∉ text.toList := by
  simp [splitAtLast]

/-- A text is divided into two that give it back, of which the second one does not hold the
separator. -/
theorem splitAtLast_eq_some_iff {sep : Char} {text head tail : String} :
    splitAtLast sep text = some (head, tail) ↔
      text = head ++ String.ofList (sep :: tail.toList) ∧ sep ∉ tail.toList := by
  refine ⟨fun h => ?_, fun ⟨htext, hsep⟩ => htext ▸ splitAtLast_append hsep⟩
  have hmem : sep ∈ text.toList := by
    by_contra hnot
    rw [splitAtLast_eq_none_iff.2 hnot] at h
    cases h
  obtain ⟨after, before, hchars, hafter⟩ :=
    List.eq_append_cons_of_mem (List.mem_reverse.2 hmem)
  have htext : text = String.ofList before.reverse ++
      String.ofList (sep :: (String.ofList after.reverse).toList) := by
    refine String.ext ?_
    have hreverse := congrArg List.reverse hchars
    simpa using hreverse
  have hsep : sep ∉ (String.ofList after.reverse).toList := by simpa using hafter
  rw [htext, splitAtLast_append hsep] at h
  cases h
  exact ⟨htext, hsep⟩

end BenchCluster.Text
