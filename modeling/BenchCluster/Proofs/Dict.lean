import BenchCluster.Dict
import Mathlib.Data.List.Induction
import Mathlib.Data.List.Sort

/-! # Dictionaries through their view

The entries, keys and values of a dictionary are what `find?` says. Inserting the items of a list
one after the other leaves, under each key, the value of an item or what was there before.
-/

namespace BenchCluster.Dict

variable {α β : Type}

theorem lookup_eq_some_iff {key : String} {value : α} {l : List (String × α)}
    (h : l.Pairwise (fun a b => a.1 < b.1)) :
    lookup key l = some value ↔ (key, value) ∈ l := by
  induction l with
  | nil => simp [lookup]
  | cons a rest ih =>
    obtain ⟨k, v⟩ := a
    rw [List.pairwise_cons] at h
    have hrest : ∀ u, (k, u) ∉ rest := fun u hu => String.lt_irrefl k (h.1 _ hu)
    by_cases hk : k = key
    · subst hk
      simp [lookup, hrest, eq_comm]
    · have hk' : ¬ key = k := fun e => hk e.symm
      simp [lookup, hk, hk', ih h.2]

theorem find?_eq_some_iff {d : Dict α} {key : String} {value : α} :
    d.find? key = some value ↔ (key, value) ∈ d.entries :=
  lookup_eq_some_iff d.sorted

theorem mem_values_iff {d : Dict α} {value : α} :
    value ∈ d.values ↔ ∃ key, d.find? key = some value := by
  simp [values, find?_eq_some_iff]

theorem contains_iff {d : Dict α} {key : String} :
    d.contains key = true ↔ ∃ value, d.find? key = some value := by
  simp [contains, Option.isSome_iff_exists]

theorem contains_eq_false_iff {d : Dict α} {key : String} :
    d.contains key = false ↔ d.find? key = none := by
  simp [contains]

theorem mem_keys_iff {d : Dict α} {key : String} : key ∈ d.keys ↔ d.contains key = true := by
  simp [keys, contains_iff, find?_eq_some_iff]

theorem sorted_keys (d : Dict α) : d.keys.Pairwise (· < ·) :=
  List.pairwise_map.2 d.sorted

theorem nodup_keys (d : Dict α) : d.keys.Nodup := by
  refine d.sorted_keys.imp fun {a b} hab => ?_
  rintro rfl
  exact String.lt_irrefl a hab

theorem isEmpty_iff {d : Dict α} : d.isEmpty = true ↔ ∀ key, d.find? key = none := by
  constructor
  · intro h key
    have he : d.entries = [] := by simpa [isEmpty] using h
    simp [find?, he, lookup]
  · intro h
    cases he : d.entries with
    | nil => simp [isEmpty, he]
    | cons e rest =>
      have hf : d.find? e.1 = some e.2 := find?_eq_some_iff.2 (by simp [he])
      rw [h] at hf
      cases hf

theorem keys_eq_of_mem_iff {d : Dict α} {e : Dict β}
    (h : ∀ key, d.contains key = true ↔ e.contains key = true) : d.keys = e.keys := by
  have hirrefl : Std.Irrefl (fun a b : String => a < b) := ⟨String.lt_irrefl⟩
  have hasymm : Std.Antisymm (fun a b : String => a < b) :=
    ⟨fun a b hab hba => absurd (String.lt_trans hab hba) (String.lt_irrefl a)⟩
  refine List.Pairwise.eq_of_mem_iff d.sorted_keys e.sorted_keys fun key => ?_
  rw [mem_keys_iff, mem_keys_iff, h]

theorem find?_map (d : Dict α) (f : α → β) (key : String) :
    (d.map f).find? key = (d.find? key).map f :=
  find?_mapWithKey d _ key

/-! ## Inserting the items of a list -/

variable {ι : Type} {f : ι → String} {g : ι → α}

theorem find?_foldl_insert_of_not_mem {l : List ι} {d : Dict α} {k : String}
    (h : k ∉ l.map f) :
    (l.foldl (fun d i => d.insert (f i) (g i)) d).find? k = d.find? k := by
  induction l generalizing d with
  | nil => rfl
  | cons i rest ih =>
    rw [List.map_cons, List.mem_cons, not_or] at h
    rw [List.foldl_cons, ih h.2, find?_insert, if_neg (fun e => h.1 e.symm)]

/-- A value that is there afterwards comes from an item, or was there before under a key that no
item has. -/
theorem find?_foldl_insert {l : List ι} {d : Dict α} {k : String} {v : α}
    (h : (l.foldl (fun d i => d.insert (f i) (g i)) d).find? k = some v) :
    (∃ i ∈ l, f i = k ∧ g i = v) ∨ (k ∉ l.map f ∧ d.find? k = some v) := by
  induction l generalizing d with
  | nil => exact .inr ⟨by simp, h⟩
  | cons i rest ih =>
    rw [List.foldl_cons] at h
    rcases ih h with ⟨j, hj, hkey, hvalue⟩ | ⟨hrest, hd⟩
    · exact .inl ⟨j, List.mem_cons_of_mem _ hj, hkey, hvalue⟩
    · rw [find?_insert] at hd
      by_cases hk : f i = k
      · rw [if_pos hk, Option.some.injEq] at hd
        exact .inl ⟨i, List.mem_cons_self, hk, hd⟩
      · rw [if_neg hk] at hd
        refine .inr ⟨?_, hd⟩
        rw [List.map_cons, List.mem_cons, not_or]
        exact ⟨fun e => hk e.symm, hrest⟩

theorem contains_foldl_insert {l : List ι} {d : Dict α} {k : String} :
    (l.foldl (fun d i => d.insert (f i) (g i)) d).contains k = true ↔
      k ∈ l.map f ∨ d.contains k = true := by
  induction l generalizing d with
  | nil => simp
  | cons i rest ih =>
    rw [List.foldl_cons, ih, List.map_cons, List.mem_cons, contains, find?_insert]
    by_cases hk : f i = k
    · simp [hk]
    · have hk' : ¬ k = f i := fun e => hk e.symm
      simp [hk, hk', contains]

theorem find?_foldl_insert_of_mem {l : List ι} {d : Dict α} {i : ι}
    (hl : (l.map f).Nodup) (hi : i ∈ l) :
    (l.foldl (fun d i => d.insert (f i) (g i)) d).find? (f i) = some (g i) := by
  induction l generalizing d with
  | nil => cases hi
  | cons j rest ih =>
    rw [List.map_cons, List.nodup_cons] at hl
    rw [List.foldl_cons]
    rcases List.mem_cons.1 hi with rfl | hi
    · rw [find?_foldl_insert_of_not_mem hl.1, find?_insert_self]
    · exact ih hl.2 hi

theorem find?_union (d e : Dict α) (key : String) :
    (d.union e).find? key = (e.find? key <|> d.find? key) := by
  rw [union]
  cases hkey : e.find? key with
  | none =>
    have hmissing : key ∉ e.entries.map Prod.fst := by
      intro hmem
      obtain ⟨entry, hentry, rfl⟩ := List.mem_map.1 hmem
      have hfound : e.find? entry.1 = some entry.2 := find?_eq_some_iff.2 hentry
      rw [hkey] at hfound
      cases hfound
    rw [find?_foldl_insert_of_not_mem hmissing]
    rfl
  | some value =>
    have hentry : (key, value) ∈ e.entries := find?_eq_some_iff.1 hkey
    exact find?_foldl_insert_of_mem (f := Prod.fst) (g := Prod.snd) e.nodup_keys hentry

theorem mem_keys_ofList {l : List (String × α)} {k : String} :
    k ∈ (ofList l).keys ↔ k ∈ l.map Prod.fst := by
  rw [mem_keys_iff, ofList, contains_foldl_insert (f := Prod.fst) (g := Prod.snd)]
  simp [contains]

/-- Of several entries of a key the last one counts. -/
theorem find?_ofList (l : List (String × α)) (key : String) :
    (ofList l).find? key = (l.reverse.find? fun e => e.1 = key).map Prod.snd := by
  induction l using List.reverseRecOn with
  | nil => rfl
  | append_singleton l e ih =>
    rw [ofList, List.foldl_append, List.reverse_append]
    change ((ofList l).insert e.1 e.2).find? key = _
    rw [find?_insert, ih]
    by_cases hkey : e.1 = key
    · simp [hkey]
    · simp [hkey]

theorem find?_ofList_of_forall {l : List (String × α)} {h : String → α}
    (hl : ∀ e ∈ l, e.2 = h e.1) (key : String) :
    (ofList l).find? key = if key ∈ l.map Prod.fst then some (h key) else none := by
  rw [find?_ofList]
  cases hfind : l.reverse.find? fun e => e.1 = key with
  | some e =>
    have hmem := List.mem_reverse.1 (List.mem_of_find?_eq_some hfind)
    have hkey : e.1 = key := by simpa using List.find?_some hfind
    rw [if_pos (List.mem_map.2 ⟨e, hmem, hkey⟩), Option.map_some, hl e hmem, hkey]
  | none =>
    rw [if_neg, Option.map_none]
    intro hkey
    obtain ⟨e, he, rfl⟩ := List.mem_map.1 hkey
    exact List.find?_eq_none.1 hfind e (List.mem_reverse.2 he) (by simp)

theorem ext_find? {d e : Dict α} (h : ∀ key, d.find? key = e.find? key) : d = e := by
  have hirrefl : Std.Irrefl (fun a b : String × α => a.1 < b.1) := ⟨fun a => String.lt_irrefl a.1⟩
  have hasymm : Std.Antisymm (fun a b : String × α => a.1 < b.1) :=
    ⟨fun a b hab hba => absurd (String.lt_trans hab hba) (String.lt_irrefl a.1)⟩
  refine ext (List.Pairwise.eq_of_mem_iff d.sorted e.sorted fun entry => ?_)
  rw [← find?_eq_some_iff (d := d), ← find?_eq_some_iff (d := e), h]

theorem ofList_entries (d : Dict α) : ofList d.entries = d := by
  refine ext_find? fun key => Option.ext fun value => ?_
  rw [find?_eq_some_iff (d := d)]
  constructor
  · intro h
    rcases find?_foldl_insert (f := Prod.fst) (g := Prod.snd) h with ⟨e, he, rfl, rfl⟩ | ⟨-, h⟩
    · exact he
    · cases h
  · exact find?_foldl_insert_of_mem (f := Prod.fst) (g := Prod.snd) d.nodup_keys

theorem find?_insertIfNew (d : Dict α) (k k' : String) (v : α) :
    (d.insertIfNew k v).find? k' = (d.find? k' <|> if k = k' then some v else none) := by
  rw [insertIfNew]
  by_cases hk : k = k'
  · subst hk
    cases hd : d.find? k <;> simp [contains, hd]
  · cases hc : d.contains k <;> cases hd : d.find? k' <;> simp [find?_insert, hk, hd]

/-- Keys that are there keep their values, and the first new value of a key stays. -/
theorem find?_foldl_insertIfNew {h : String → α} {l : List ι} {d : Dict α} {k : String} :
    (l.foldl (fun d i => d.insertIfNew (f i) (h (f i))) d).find? k =
      (d.find? k <|> if k ∈ l.map f then some (h k) else none) := by
  induction l generalizing d with
  | nil => simp
  | cons i rest ih =>
    rw [List.foldl_cons, ih, find?_insertIfNew, List.map_cons]
    by_cases hk : f i = k
    · subst hk
      cases d.find? (f i) <;> simp
    · have hk' : ¬ k = f i := fun e => hk e.symm
      cases d.find? k <;> simp [hk, hk']

/-! ## Forgetting a list of keys -/

theorem find?_foldl_erase {names : List String} {d : Dict α} {k : String} :
    (names.foldl (fun d name => d.erase name) d).find? k =
      if k ∈ names then none else d.find? k := by
  induction names generalizing d with
  | nil => simp
  | cons name rest ih =>
    rw [List.foldl_cons, ih, find?_erase]
    by_cases hk : name = k
    · simp [hk]
    · have hk' : ¬ k = name := fun e => hk e.symm
      simp [hk, hk']

end BenchCluster.Dict
