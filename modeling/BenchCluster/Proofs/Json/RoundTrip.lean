import BenchCluster.Proofs.Json.Quoted

/-! # Reading back what has been written as JSON

The pretty text of data without fractions, signs or moments is read as these data, with any blanks
behind it.
-/

namespace BenchCluster

namespace Data

mutual

/-- Data made of nothing, truth values, natural numbers of 64 bits, texts, lists and tables. -/
def IsPlain : Data → Prop
  | .null => True
  | .bool _ => True
  | .integer n => 0 ≤ n ∧ n < UInt64.size
  | .text _ => True
  | .list items => ItemsPlain items
  | .table entries => EntriesPlain entries
  | _ => False

def ItemsPlain : List Data → Prop
  | [] => True
  | d :: rest => d.IsPlain ∧ ItemsPlain rest

def EntriesPlain : List (String × Data) → Prop
  | [] => True
  | (_, d) :: rest => d.IsPlain ∧ EntriesPlain rest

end

theorem itemsPlain_iff {items : List Data} : ItemsPlain items ↔ ∀ d ∈ items, d.IsPlain := by
  induction items with
  | nil => simp [ItemsPlain]
  | cons d rest ih => simp [ItemsPlain, ih]

theorem entriesPlain_iff {entries : List (String × Data)} :
    EntriesPlain entries ↔ ∀ e ∈ entries, e.2.IsPlain := by
  induction entries with
  | nil => simp [EntriesPlain]
  | cons e rest ih => obtain ⟨k, d⟩ := e; simp [EntriesPlain, ih]

@[simp] theorem isPlain_null : null.IsPlain := trivial

@[simp] theorem isPlain_bool (b : Bool) : (bool b).IsPlain := trivial

@[simp] theorem isPlain_text (s : String) : (text s).IsPlain := trivial

@[simp] theorem isPlain_list {items : List Data} :
    (list items).IsPlain ↔ ∀ d ∈ items, d.IsPlain := itemsPlain_iff

@[simp] theorem isPlain_table {entries : List (String × Data)} :
    (table entries).IsPlain ↔ ∀ e ∈ entries, e.2.IsPlain := entriesPlain_iff

theorem isPlain_integer {n : Nat} (hn : n < UInt64.size) : (integer n).IsPlain :=
  ⟨by omega, by omega⟩

@[simp] theorem isPlain_uint32 (n : UInt32) : (integer n.toNat).IsPlain :=
  isPlain_integer (Nat.lt_trans n.toNat_lt (by decide))

@[simp] theorem isPlain_uint16 (n : UInt16) : (integer n.toNat).IsPlain :=
  isPlain_integer (Nat.lt_trans n.toNat_lt (by decide))

end Data

namespace Json

/-! ## Blanks -/

def isBlank (c : Char) : Bool := c = ' ' || c = '\n' || c = '\t' || c = '\r'

theorem skipBlanks_cons (c : Char) (rest : List Char) :
    skipBlanks (c :: rest) = if isBlank c then skipBlanks rest else c :: rest := by
  simp [skipBlanks, isBlank, or_assoc]

theorem skipBlanks_of_head {chars : List Char} (h : ∀ c ∈ chars.head?, isBlank c = false) :
    skipBlanks chars = chars := by
  cases chars with
  | nil => rfl
  | cons c rest => rw [skipBlanks_cons, if_neg (by simp [h c rfl])]

theorem skipBlanks_append {blanks : List Char} (h : ∀ c ∈ blanks, isBlank c = true)
    (rest : List Char) : skipBlanks (blanks ++ rest) = skipBlanks rest := by
  induction blanks with
  | nil => rfl
  | cons c blanks ih =>
    rw [List.cons_append, skipBlanks_cons, if_pos (h c (by simp))]
    exact ih fun x hx => h x (by simp [hx])

theorem skipBlanks_skipBlanks (chars : List Char) :
    skipBlanks (skipBlanks chars) = skipBlanks chars := by
  induction chars with
  | nil => rfl
  | cons c rest ih =>
    rw [skipBlanks_cons]
    split
    · exact ih
    · rename_i hc
      exact skipBlanks_of_head (by simpa using hc)

theorem isBlank_of_mem_newline {level : Nat} {c : Char} (h : c ∈ newline level) :
    isBlank c = true := by
  rcases List.mem_cons.1 h with rfl | h
  · rfl
  · rw [List.eq_of_mem_replicate h]
    rfl

theorem skipBlanks_newline (level : Nat) (rest : List Char) :
    skipBlanks (newline level ++ rest) = skipBlanks rest :=
  skipBlanks_append (fun _ => isBlank_of_mem_newline) rest

theorem readValue_of_skipBlanks {chars chars' : List Char}
    (h : skipBlanks chars = skipBlanks chars') (fuel : Nat) :
    readValue fuel chars = readValue fuel chars' := by
  cases fuel with
  | zero => rw [readValue, readValue]
  | succ fuel => rw [readValue, readValue, h]

theorem readItems_of_skipBlanks {chars chars' : List Char}
    (h : skipBlanks chars = skipBlanks chars') (fuel : Nat) :
    readItems fuel chars = readItems fuel chars' := by
  cases fuel with
  | zero => rw [readItems, readItems]
  | succ fuel => rw [readItems, readItems, readValue_of_skipBlanks h]

theorem readEntries_of_skipBlanks {chars chars' : List Char}
    (h : skipBlanks chars = skipBlanks chars') (fuel : Nat) :
    readEntries fuel chars = readEntries fuel chars' := by
  cases fuel with
  | zero => rw [readEntries, readEntries]
  | succ fuel => rw [readEntries, readEntries, h]

/-! ## Values -/

theorem isBlank_of_isDigit {c : Char} (hc : c.isDigit = true) : isBlank c = false := by
  simp only [isBlank, Bool.or_eq_false_iff, decide_eq_false_iff_not]
  refine ⟨⟨⟨?_, ?_⟩, ?_⟩, ?_⟩ <;> (rintro rfl; cases hc)

theorem prettyChars_integer (level : Nat) {n : Int} (hn : 0 ≤ n) :
    prettyChars level (.integer n) = Nat.toDigits 10 n.toNat := by
  obtain ⟨k, rfl⟩ := Int.eq_ofNat_of_zero_le hn
  exact Nat.toList_repr

/-- A written value begins with a character that is no blank and does not close a list. -/
theorem exists_prettyChars {d : Data} (hd : d.IsPlain) (level : Nat) :
    ∃ c chars, prettyChars level d = c :: chars ∧ isBlank c = false ∧ c ≠ ']' := by
  cases d with
  | null => exact ⟨'n', _, rfl, rfl, by decide⟩
  | bool b => cases b <;> exact ⟨_, _, rfl, rfl, by decide⟩
  | integer n =>
    obtain ⟨c, digits, hdigits⟩ :=
      List.exists_cons_of_ne_nil (Nat.toDigits_ne_nil (b := 10) (n := n.toNat))
    have hc : c.isDigit = true := Text.isDigit_of_mem_toDigits (n := n.toNat) (by simp [hdigits])
    refine ⟨c, digits, (prettyChars_integer level hd.1).trans hdigits, isBlank_of_isDigit hc, ?_⟩
    rintro rfl
    cases hc
  | text s => exact ⟨'"', _, rfl, rfl, by decide⟩
  | list items => cases items <;> exact ⟨'[', _, rfl, rfl, by decide⟩
  | table entries => cases entries <;> exact ⟨'\x7b', _, rfl, rfl, by decide⟩
  | _ => cases hd

theorem readValue_digits (fuel : Nat) {n : Nat} (hn : n < UInt64.size) {rest : List Char}
    (hrest : EndsNumeral rest) :
    readValue (fuel + 1) (Nat.toDigits 10 n ++ rest) = some (.integer n, rest) := by
  have hnumeral := numeral?_toDigits n hrest
  obtain ⟨c, digits, hdigits⟩ := List.exists_cons_of_ne_nil (Nat.toDigits_ne_nil (b := 10) (n := n))
  have hc : c.isDigit = true := Text.isDigit_of_mem_toDigits (n := n) (by simp [hdigits])
  have hne : ∀ x : Char, x.isDigit = false → c ≠ x := by
    rintro x hx rfl
    rw [hc] at hx
    cases hx
  have hstart : skipBlanks (Nat.toDigits 10 n ++ rest) = Nat.toDigits 10 n ++ rest :=
    skipBlanks_of_head (by simpa [hdigits] using isBlank_of_isDigit hc)
  rw [readValue, hstart]
  -- None of the other values begins with a digit.
  split
  case h_8 => simp [hnumeral, toData_numeral hn]
  all_goals
    rename_i heq
    rw [hdigits] at heq
    exact absurd (List.cons.inj heq).1 (hne _ rfl)

theorem readValue_text (fuel : Nat) (s : String) (rest : List Char) :
    readValue (fuel + 1) (quoted s ++ rest) = some (.text s, rest) := by
  have hquoted : quoted s ++ rest = '"' :: (s.toList.flatMap escape ++ '"' :: rest) := by
    simp [quoted]
  have hstart : skipBlanks (quoted s ++ rest) = quoted s ++ rest :=
    skipBlanks_of_head (by simp [hquoted, isBlank])
  rw [readValue, hstart, hquoted]
  simp [stringBody_text]

theorem tableOf_texts (entries : List (String × Data)) :
    tableOf (entries.map fun e => (some e.1, e.2)) = .table entries := by
  have hkeys : (entries.map fun e => (some e.1, e.2)).mapM
      (fun e : Option String × Data => e.1.map fun k => (k, e.2)) = some entries := by
    rw [List.mapM_map]
    induction entries with
    | nil => rfl
    | cons e rest ih => simp_all
  rw [tableOf, hkeys]

/-! ## Lists and tables -/

section

variable {fuel close : Nat} {chars rest rest' : List Char} {d : Data} {items : List Data}
  {entries : List (Option String × Data)}

theorem readValue_list {c : Char} (hchars : skipBlanks chars = c :: rest') (hc : c ≠ ']')
    (hitems : readItems fuel chars = some (items, rest)) :
    readValue (fuel + 1) ('[' :: chars) = some (.list items, rest) := by
  have hstart : skipBlanks ('[' :: chars) = '[' :: chars := skipBlanks_of_head (by simp [isBlank])
  have hsame := readItems_of_skipBlanks (skipBlanks_skipBlanks chars) fuel
  rw [hchars, hitems] at hsame
  rw [readValue, hstart]
  simp [hchars, hc, hsame]

theorem readValue_table {c : Char} (hchars : skipBlanks chars = c :: rest') (hc : c ≠ '\x7d')
    (hentries : readEntries fuel chars = some (entries, rest)) :
    readValue (fuel + 1) ('\x7b' :: chars) = some (tableOf entries, rest) := by
  have hstart : skipBlanks ('\x7b' :: chars) = '\x7b' :: chars :=
    skipBlanks_of_head (by simp [isBlank])
  have hsame := readEntries_of_skipBlanks (skipBlanks_skipBlanks chars) fuel
  rw [hchars, hentries] at hsame
  rw [readValue, hstart]
  simp [hchars, hc, hsame]

theorem readItems_last (hitem : readValue fuel chars = some (d, newline close ++ ']' :: rest)) :
    readItems (fuel + 1) chars = some ([d], rest) := by
  have hclose : skipBlanks (newline close ++ ']' :: rest) = ']' :: rest :=
    (skipBlanks_newline _ _).trans (skipBlanks_of_head (by simp [isBlank]))
  simp [readItems, hitem, hclose]

theorem readItems_more (hitem : readValue fuel chars = some (d, ',' :: rest'))
    (hitems : readItems fuel rest' = some (items, rest)) :
    readItems (fuel + 1) chars = some (d :: items, rest) := by
  have hcomma : skipBlanks (',' :: rest') = ',' :: rest' := skipBlanks_of_head (by simp [isBlank])
  simp [readItems, hitem, hcomma, hitems]

def entryChars (level : Nat) (k : String) (chars : List Char) : List Char :=
  newline level ++ (quoted k ++ ':' :: ' ' :: chars)

theorem skipBlanks_entryChars (level : Nat) (k : String) (chars : List Char) :
    skipBlanks (entryChars level k chars) =
      '"' :: (k.toList.flatMap escape ++ '"' :: ':' :: ' ' :: chars) := by
  have hquoted : quoted k ++ ':' :: ' ' :: chars =
      '"' :: (k.toList.flatMap escape ++ '"' :: ':' :: ' ' :: chars) := by
    simp [quoted]
  rw [entryChars, skipBlanks_newline, hquoted]
  exact skipBlanks_of_head (by simp [isBlank])

theorem entryChars_append (level : Nat) (k : String) (chars rest : List Char) :
    entryChars level k chars ++ rest = entryChars level k (chars ++ rest) := by
  simp [entryChars]

theorem readEntries_last {k : String} (level : Nat)
    (hitem : readValue fuel chars = some (d, newline close ++ '\x7d' :: rest)) :
    readEntries (fuel + 1) (entryChars level k chars) = some ([(some k, d)], rest) := by
  have hcolon : skipBlanks (':' :: ' ' :: chars) = ':' :: ' ' :: chars :=
    skipBlanks_of_head (by simp [isBlank])
  have hspace : readValue fuel (' ' :: chars) = readValue fuel chars :=
    readValue_of_skipBlanks (by simp [skipBlanks_cons, isBlank]) fuel
  have hclose : skipBlanks (newline close ++ '\x7d' :: rest) = '\x7d' :: rest :=
    (skipBlanks_newline _ _).trans (skipBlanks_of_head (by simp [isBlank]))
  simp [readEntries, skipBlanks_entryChars, stringBody_text, hcolon, hspace, hitem, hclose]

theorem readEntries_more {k : String} (level : Nat)
    (hitem : readValue fuel chars = some (d, ',' :: rest'))
    (hentries : readEntries fuel rest' = some (entries, rest)) :
    readEntries (fuel + 1) (entryChars level k chars) = some ((some k, d) :: entries, rest) := by
  have hcolon : skipBlanks (':' :: ' ' :: chars) = ':' :: ' ' :: chars :=
    skipBlanks_of_head (by simp [isBlank])
  have hspace : readValue fuel (' ' :: chars) = readValue fuel chars :=
    readValue_of_skipBlanks (by simp [skipBlanks_cons, isBlank]) fuel
  have hcomma : skipBlanks (',' :: rest') = ',' :: rest' := skipBlanks_of_head (by simp [isBlank])
  simp [readEntries, skipBlanks_entryChars, stringBody_text, hcolon, hspace, hitem, hcomma,
    hentries]

end

/-! ## Everything that is written -/

theorem endsNumeral_newline (level : Nat) (rest : List Char) :
    EndsNumeral (newline level ++ rest) := by
  intro c hc
  cases hc
  decide

theorem endsNumeral_comma (rest : List Char) : EndsNumeral (',' :: rest) := by
  intro c hc
  cases hc
  decide

theorem prettyItems_cons (level : Nat) (d next : Data) (items : List Data) :
    prettyItems level (d :: next :: items) =
      newline level ++ (prettyChars level d ++ ',' :: prettyItems level (next :: items)) := by
  rw [prettyItems]
  · simp
  · simp

theorem prettyEntries_singleton (level : Nat) (k : String) (d : Data) :
    prettyEntries level [(k, d)] = entryChars level k (prettyChars level d) := by
  simp [prettyEntries, entryChars]

theorem prettyEntries_cons (level : Nat) (k : String) (d : Data) (next : String × Data)
    (entries : List (String × Data)) :
    prettyEntries level ((k, d) :: next :: entries) =
      entryChars level k (prettyChars level d ++ ',' :: prettyEntries level (next :: entries)) := by
  rw [prettyEntries]
  · simp [entryChars]
  · simp

theorem exists_prettyItems (level : Nat) (d : Data) (items : List Data) :
    ∃ chars, prettyItems level (d :: items) = newline level ++ (prettyChars level d ++ chars) := by
  cases items with
  | nil => exact ⟨[], by simp [prettyItems]⟩
  | cons next items => exact ⟨_, prettyItems_cons level d next items⟩

theorem exists_prettyEntries (level : Nat) (e : String × Data) (entries : List (String × Data)) :
    ∃ chars, prettyEntries level (e :: entries) = entryChars level e.1 chars := by
  cases entries with
  | nil => exact ⟨_, prettyEntries_singleton level e.1 e.2⟩
  | cons next entries => exact ⟨_, prettyEntries_cons level e.1 e.2 next entries⟩

mutual

/-- The pretty text of a value is read as the value, with whatever stands behind it. -/
theorem readValue_prettyChars : ∀ (fuel : Nat) (d : Data) (level : Nat) (rest : List Char),
    d.IsPlain → EndsNumeral rest → (prettyChars level d).length < fuel →
    readValue fuel (prettyChars level d ++ rest) = some (d, rest)
  | 0, d, level, rest, _, _, hfuel => by cases hfuel
  | fuel + 1, .null, level, rest, _, _, _ => rfl
  | fuel + 1, .bool true, level, rest, _, _, _ => rfl
  | fuel + 1, .bool false, level, rest, _, _, _ => rfl
  | fuel + 1, .integer n, level, rest, hd, hrest, hfuel => by
    obtain ⟨hn, hbound⟩ := hd
    rw [prettyChars_integer level hn, readValue_digits fuel (by omega) hrest,
      Int.toNat_of_nonneg hn]
  | fuel + 1, .text s, level, rest, _, _, _ => readValue_text fuel s rest
  | fuel + 1, .list [], level, rest, _, _, _ => rfl
  | fuel + 1, .list (d :: items), level, rest, hd, _, hfuel => by
    have hchars : prettyChars level (.list (d :: items)) ++ rest =
        '[' :: (prettyItems (level + 1) (d :: items) ++ (newline level ++ ']' :: rest)) := by
      simp [prettyChars]
    -- The reader looks at the first item to see that the list is not empty.
    obtain ⟨more, hmore⟩ := exists_prettyItems (level + 1) d items
    obtain ⟨c, chars, hopen, hblank, hc⟩ := exists_prettyChars hd.1 (level + 1)
    have hskip : skipBlanks
        (prettyItems (level + 1) (d :: items) ++ (newline level ++ ']' :: rest)) =
        c :: (chars ++ more ++ (newline level ++ ']' :: rest)) := by
      rw [hmore, List.append_assoc, skipBlanks_newline, hopen]
      simp [skipBlanks_cons, hblank]
    rw [hchars]
    refine readValue_list hskip hc (readItems_prettyItems fuel d items (level + 1) level rest hd ?_)
    simp only [prettyChars, List.length_cons, List.length_append] at hfuel
    omega
  | fuel + 1, .table [], level, rest, _, _, _ => rfl
  | fuel + 1, .table (e :: entries), level, rest, hd, _, hfuel => by
    have hchars : prettyChars level (.table (e :: entries)) ++ rest =
        '\x7b' ::
          (prettyEntries (level + 1) (e :: entries) ++ (newline level ++ '\x7d' :: rest)) := by
      simp [prettyChars]
    obtain ⟨more, hmore⟩ := exists_prettyEntries (level + 1) e entries
    have hskip := skipBlanks_entryChars (level + 1) e.1 (more ++ (newline level ++ '\x7d' :: rest))
    rw [← entryChars_append, ← hmore] at hskip
    have hread := readEntries_prettyEntries fuel e entries (level + 1) level rest hd (by
      simp only [prettyChars, List.length_cons, List.length_append] at hfuel
      omega)
    rw [hchars, readValue_table hskip (by decide) hread, tableOf_texts]

theorem readItems_prettyItems : ∀ (fuel : Nat) (d : Data) (items : List Data) (level close : Nat)
    (rest : List Char), Data.ItemsPlain (d :: items) →
    (prettyItems level (d :: items)).length < fuel →
    readItems fuel (prettyItems level (d :: items) ++ (newline close ++ ']' :: rest)) =
      some (d :: items, rest)
  | 0, d, items, level, close, rest, _, hfuel => by cases hfuel
  | fuel + 1, d, [], level, close, rest, hplain, hfuel => by
    have hread := readValue_prettyChars fuel d level (newline close ++ ']' :: rest) hplain.1
      (endsNumeral_newline _ _) (by simp [prettyItems, newline] at hfuel ⊢; omega)
    rw [← readValue_of_skipBlanks (skipBlanks_newline level _)] at hread
    have hitems : prettyItems level [d] ++ (newline close ++ ']' :: rest) =
        newline level ++ (prettyChars level d ++ (newline close ++ ']' :: rest)) := by
      simp [prettyItems]
    rw [hitems]
    exact readItems_last hread
  | fuel + 1, d, next :: items, level, close, rest, hplain, hfuel => by
    rw [prettyItems_cons] at hfuel ⊢
    simp only [newline, List.length_cons, List.length_append] at hfuel
    have hread := readValue_prettyChars fuel d level
      (',' :: (prettyItems level (next :: items) ++ (newline close ++ ']' :: rest))) hplain.1
      (endsNumeral_comma _) (by omega)
    rw [← readValue_of_skipBlanks (skipBlanks_newline level _)] at hread
    have hothers := readItems_prettyItems fuel next items level close rest hplain.2 (by omega)
    have happend : newline level ++
          (prettyChars level d ++ ',' :: prettyItems level (next :: items)) ++
          (newline close ++ ']' :: rest) =
        newline level ++ (prettyChars level d ++
          ',' :: (prettyItems level (next :: items) ++ (newline close ++ ']' :: rest))) := by
      simp
    rw [happend]
    exact readItems_more hread hothers

theorem readEntries_prettyEntries : ∀ (fuel : Nat) (e : String × Data)
    (entries : List (String × Data)) (level close : Nat) (rest : List Char),
    Data.EntriesPlain (e :: entries) → (prettyEntries level (e :: entries)).length < fuel →
    readEntries fuel (prettyEntries level (e :: entries) ++ (newline close ++ '\x7d' :: rest)) =
      some ((e :: entries).map fun e => (some e.1, e.2), rest)
  | 0, e, entries, level, close, rest, _, hfuel => by cases hfuel
  | fuel + 1, (k, d), [], level, close, rest, hplain, hfuel => by
    rw [prettyEntries_singleton] at hfuel ⊢
    simp only [entryChars, newline, List.length_cons, List.length_append] at hfuel
    have hread := readValue_prettyChars fuel d level (newline close ++ '\x7d' :: rest) hplain.1
      (endsNumeral_newline _ _) (by omega)
    rw [entryChars_append]
    exact readEntries_last level hread
  | fuel + 1, (k, d), next :: entries, level, close, rest, hplain, hfuel => by
    rw [prettyEntries_cons] at hfuel ⊢
    simp only [entryChars, newline, List.length_cons, List.length_append] at hfuel
    have hread := readValue_prettyChars fuel d level
      (',' :: (prettyEntries level (next :: entries) ++ (newline close ++ '\x7d' :: rest))) hplain.1
      (endsNumeral_comma _) (by omega)
    have hothers := readEntries_prettyEntries fuel next entries level close rest hplain.2 (by omega)
    rw [entryChars_append, List.append_assoc, List.cons_append]
    exact readEntries_more level hread hothers

end

/-- The pretty text of plain data is read as these data, with any blanks behind it. -/
theorem read?_pretty {d : Data} (hd : d.IsPlain) (blanks : String)
    (hblanks : ∀ c ∈ blanks.toList, isBlank c = true) : read? (pretty d ++ blanks) = some d := by
  have hends : EndsNumeral blanks.toList := by
    intro c hc
    have hblank := hblanks c (List.mem_of_mem_head? hc)
    simp only [isBlank, Bool.or_eq_true, decide_eq_true_eq] at hblank
    rcases hblank with ((rfl | rfl) | rfl) | rfl <;> decide
  have hrest : skipBlanks blanks.toList = [] := by
    simpa [skipBlanks] using skipBlanks_append hblanks []
  rw [read?, pretty, String.toList_append, String.toList_ofList,
    readValue_prettyChars _ d 0 blanks.toList hd hends (by
      simp only [List.length_append]
      omega)]
  simp [hrest]

end Json

end BenchCluster
