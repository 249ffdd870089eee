/-! # Dictionaries with text keys

A dictionary is a list of entries in strictly increasing key order, so two dictionaries with the
same entries are equal. `find?` is its view: the lemmas say what every operation does to it.
-/

namespace BenchCluster

/-- A finite map from texts, listed in the order of its keys. -/
structure Dict (α : Type) where
  /-- The entries, in strictly increasing order of the keys. -/
  entries : List (String × α)
  sorted : entries.Pairwise (fun a b => a.1 < b.1)

namespace Dict

variable {α β : Type}

theorem ext {d e : Dict α} (h : d.entries = e.entries) : d = e := by
  cases d; cases e; simp_all

instance [DecidableEq α] : DecidableEq (Dict α) := fun d e =>
  if h : d.entries = e.entries then isTrue (ext h)
  else isFalse fun hde => h (hde ▸ rfl)

instance [Repr α] : Repr (Dict α) := ⟨fun d n => reprPrec d.entries n⟩

def empty : Dict α := ⟨[], List.Pairwise.nil⟩

instance : Inhabited (Dict α) := ⟨empty⟩

instance : EmptyCollection (Dict α) := ⟨empty⟩

def keys (d : Dict α) : List String := d.entries.map Prod.fst

def values (d : Dict α) : List α := d.entries.map Prod.snd

def size (d : Dict α) : Nat := d.entries.length

def isEmpty (d : Dict α) : Bool := d.entries.isEmpty

def lookup (key : String) : List (String × α) → Option α
  | [] => none
  | (k, v) :: rest => if k = key then some v else lookup key rest

def find? (d : Dict α) (key : String) : Option α := lookup key d.entries

def contains (d : Dict α) (key : String) : Bool := (d.find? key).isSome

/-- Puts a value into its place among sorted entries, replacing the one that was there. -/
def insertEntry (key : String) (value : α) : List (String × α) → List (String × α)
  | [] => [(key, value)]
  | (k, v) :: rest =>
    if key < k then (key, value) :: (k, v) :: rest
    else if key = k then (key, value) :: rest
    else (k, v) :: insertEntry key value rest

theorem mem_insertEntry {key : String} {value : α} {l : List (String × α)} {e : String × α}
    (h : e ∈ insertEntry key value l) : e = (key, value) ∨ e ∈ l := by
  induction l with
  | nil => simpa [insertEntry] using h
  | cons a rest ih =>
    simp only [insertEntry] at h
    split at h
    · simpa using h
    · split at h
      · simp at h; grind
      · simp at h; grind

theorem pairwise_insertEntry {key : String} {value : α} {l : List (String × α)}
    (h : l.Pairwise (fun a b => a.1 < b.1)) :
    (insertEntry key value l).Pairwise (fun a b => a.1 < b.1) := by
  induction l with
  | nil => simp [insertEntry]
  | cons a rest ih =>
    obtain ⟨k, v⟩ := a
    rw [List.pairwise_cons] at h
    simp only [insertEntry]
    split
    · rename_i hk
      rw [List.pairwise_cons]
      refine ⟨fun e he => ?_, List.pairwise_cons.2 h⟩
      rcases List.mem_cons.1 he with rfl | he
      · exact hk
      · exact String.lt_trans hk (h.1 e he)
    · split
      · rename_i hk
        subst hk
        exact List.pairwise_cons.2 h
      · rename_i hlt hne
        rw [List.pairwise_cons]
        refine ⟨fun e he => ?_, ih h.2⟩
        rcases mem_insertEntry he with rfl | he
        · show k < key
          grind
        · exact h.1 e he

def insert (d : Dict α) (key : String) (value : α) : Dict α :=
  ⟨insertEntry key value d.entries, pairwise_insertEntry d.sorted⟩

def erase (d : Dict α) (key : String) : Dict α :=
  ⟨d.entries.filter (fun e => e.1 ≠ key), d.sorted.filter _⟩

def filter (d : Dict α) (keep : String → α → Bool) : Dict α :=
  ⟨d.entries.filter (fun e => keep e.1 e.2), d.sorted.filter _⟩

def mapWithKey (f : String → α → β) (d : Dict α) : Dict β :=
  ⟨d.entries.map (fun e => (e.1, f e.1 e.2)), by
    rw [List.pairwise_map]; exact d.sorted⟩

def map (f : α → β) (d : Dict α) : Dict β := d.mapWithKey (fun _ => f)

/-- The dictionary with the entries of a list, of which the last one of a key counts. -/
def ofList (l : List (String × α)) : Dict α :=
  l.foldl (fun d e => d.insert e.1 e.2) empty

/-- Adds the entries of the second dictionary to the first, whose values they replace. -/
def union (d e : Dict α) : Dict α :=
  e.entries.foldl (fun d e => d.insert e.1 e.2) d

/-- Sets the value of a key that has none yet. -/
def insertIfNew (d : Dict α) (key : String) (value : α) : Dict α :=
  if d.contains key then d else d.insert key value

/-! ## What the operations do to the view -/

theorem lookup_insertEntry {key key' : String} {value : α} {l : List (String × α)}
    (h : l.Pairwise (fun a b => a.1 < b.1)) :
    lookup key' (insertEntry key value l) = if key = key' then some value else lookup key' l := by
  induction l with
  | nil => simp [insertEntry, lookup]
  | cons a rest ih =>
    obtain ⟨k, v⟩ := a
    rw [List.pairwise_cons] at h
    simp only [insertEntry]
    split
    · simp [lookup]
    · split
      · rename_i hk
        subst hk
        simp only [lookup]
        split <;> rfl
      · simp only [lookup, ih h.2]
        grind

@[simp] theorem find?_empty (key : String) : (empty : Dict α).find? key = none := rfl

theorem find?_insert (d : Dict α) (key key' : String) (value : α) :
    (d.insert key value).find? key' = if key = key' then some value else d.find? key' :=
  lookup_insertEntry d.sorted

@[simp] theorem find?_insert_self (d : Dict α) (key : String) (value : α) :
    (d.insert key value).find? key = some value := by
  simp [find?_insert]

theorem lookup_eq_none {key : String} {l : List (String × α)} (h : ∀ e ∈ l, e.1 ≠ key) :
    lookup key l = none := by
  induction l with
  | nil => rfl
  | cons a rest ih =>
    simp only [lookup]
    rw [if_neg (h a (by simp)), ih fun e he => h e (by simp [he])]

theorem lookup_filter {key : String} {p : String × α → Bool} {l : List (String × α)}
    (h : l.Pairwise (fun a b => a.1 < b.1)) :
    lookup key (l.filter p) = (lookup key l).filter (fun v => p (key, v)) := by
  induction l with
  | nil => rfl
  | cons a rest ih =>
    obtain ⟨k, v⟩ := a
    rw [List.pairwise_cons] at h
    by_cases hk : k = key
    · subst hk
      have hrest : ∀ e ∈ rest, e.1 ≠ k := fun e he hek =>
        absurd (hek ▸ h.1 e he) (String.lt_irrefl k)
      by_cases hp : p (k, v) = true
      · simp [lookup, hp, Option.filter]
      · rw [List.filter_cons_of_neg hp, lookup_eq_none fun e he => hrest e (List.mem_filter.1 he).1]
        simp [lookup, hp, Option.filter]
    · by_cases hp : p (k, v)
      · simp [hp, lookup, hk, ih h.2]
      · simp [hp, lookup, hk, ih h.2]

theorem find?_filter (d : Dict α) (keep : String → α → Bool) (key : String) :
    (d.filter keep).find? key = (d.find? key).filter (keep key) :=
  lookup_filter d.sorted

theorem find?_erase (d : Dict α) (key key' : String) :
    (d.erase key).find? key' = if key = key' then none else d.find? key' := by
  show lookup key' (d.entries.filter _) = _
  rw [lookup_filter d.sorted]
  by_cases h : key = key'
  · subst h
    cases lookup key d.entries <;> simp
  · have h' : ¬ key' = key := fun e => h e.symm
    show Option.filter _ (d.find? key') = _
    cases d.find? key' <;> simp [h, h']

theorem find?_mapWithKey (d : Dict α) (f : String → α → β) (key : String) :
    (d.mapWithKey f).find? key = (d.find? key).map (f key) := by
  show lookup key (d.entries.map _) = (lookup key d.entries).map (f key)
  induction d.entries with
  | nil => rfl
  | cons a rest ih =>
    simp only [List.map_cons, lookup]
    split
    · rename_i h; subst h; rfl
    · exact ih

end Dict

end BenchCluster
