import BenchCluster.Timestamp
import BenchCluster.Proofs.Text.Numeral

/-! # Points in time read back

The text of every point in time of the calendar is read as this point in time, to the nanosecond.
-/

namespace BenchCluster.Timestamp

open Text (paddedDigits)

theorem not_isBlank_of_isDigit {c : Char} (hc : c.isDigit = true) : Text.isBlank c = false := by
  simp only [Char.isDigit, Bool.and_eq_true, decide_eq_true_eq] at hc
  obtain ⟨hlow, hhigh⟩ := hc
  have hlow' : 48 ≤ c.toNat := hlow
  have hhigh' : c.toNat ≤ 57 := hhigh
  simp [Text.isBlank]
  omega

def EndsDigits (rest : List Char) : Prop := ∀ c ∈ rest.head?, c.isDigit = false

theorem endsDigits_cons {c : Char} (hc : c.isDigit = false) (rest : List Char) :
    EndsDigits (c :: rest) := by
  rintro x ⟨⟩
  exact hc

theorem takeWhile_paddedDigits (width n : Nat) {rest : List Char} (hrest : EndsDigits rest) :
    (paddedDigits width n ++ rest).takeWhile Char.isDigit = paddedDigits width n := by
  have hstop : rest.takeWhile Char.isDigit = [] := by
    cases rest with
    | nil => rfl
    | cons c rest => simp [hrest c rfl]
  rw [List.takeWhile_append_of_pos fun c hc => Text.isDigit_of_mem_paddedDigits hc, hstop,
    List.append_nil]

theorem skipBlanks_of_head {chars : List Char} (h : ∀ c ∈ chars.head?, Text.isBlank c = false) :
    skipBlanks chars = chars := by
  cases chars with
  | nil => rfl
  | cons c rest => simp [skipBlanks, h c rfl]

theorem skipBlanks_paddedDigits (width n : Nat) (rest : List Char) :
    skipBlanks (paddedDigits width n ++ rest) = paddedDigits width n ++ rest := by
  apply skipBlanks_of_head
  rw [List.head?_append_of_ne_nil _ (Text.paddedDigits_ne_nil width n)]
  intro c hc
  exact not_isBlank_of_isDigit (Text.isDigit_of_mem_paddedDigits (List.mem_of_mem_head? hc))

section

variable {width n : Nat} {rest : List Char}

theorem number?_none (hrest : EndsDigits rest) :
    number? none (paddedDigits width n ++ rest) = some (n, rest) := by
  simp [number?, takeWhile_paddedDigits width n hrest, Text.paddedDigits_ne_nil,
    Text.digitsValue_paddedDigits]

theorem number?_some (hwidth : 0 < width) (hn : n < 10 ^ width) (hrest : EndsDigits rest) :
    number? (some width) (paddedDigits width n ++ rest) = some (n, rest) := by
  have hall : (paddedDigits width n).take width = paddedDigits width n :=
    List.take_of_length_le (Nat.le_of_eq (Text.length_paddedDigits hwidth hn))
  simp [number?, takeWhile_paddedDigits width n hrest, hall, Text.paddedDigits_ne_nil,
    Text.digitsValue_paddedDigits]

theorem part?_paddedDigits (hn : n < 100) (hrest : EndsDigits rest) :
    part? (paddedDigits 2 n ++ rest) = some (n, rest) := by
  rw [part?, skipBlanks_paddedDigits]
  exact number?_some (by decide) hn hrest

theorem mark?_cons {c : Char} (hc : Text.isBlank c = false) (rest : List Char) :
    mark? c (c :: rest) = some rest := by
  rw [mark?, skipBlanks_of_head (by simpa using hc)]
  simp

end

/-! ## Years and fractions -/

theorem year?_yearText (year : Int) {rest : List Char} (hrest : EndsDigits rest) :
    year? ((yearText year).toList ++ rest) = some (year, rest) := by
  rw [yearText]
  split
  · rename_i hfour
    have hnumber := number?_some (by decide : 0 < 4) (n := year.toNat) (by omega) hrest
    obtain ⟨c, digits, hdigits⟩ :=
      List.exists_cons_of_ne_nil (Text.paddedDigits_ne_nil 4 year.toNat)
    have hc : c.isDigit = true :=
      Text.isDigit_of_mem_paddedDigits (hdigits ▸ List.mem_cons_self)
    rw [Text.toList_padded, year?, skipBlanks_paddedDigits]
    split
    · rename_i heq
      rw [hdigits] at heq
      cases heq
      cases hc
    · rename_i heq
      rw [hdigits] at heq
      cases heq
      cases hc
    · simp [hnumber, Int.toNat_of_nonneg hfour.1]
  · have hnumber : number? none (paddedDigits 4 year.natAbs ++ rest) = some (year.natAbs, rest) :=
      number?_none hrest
    split
    · rename_i hneg
      have hskip : skipBlanks ('-' :: (paddedDigits 4 year.natAbs ++ rest)) =
          '-' :: (paddedDigits 4 year.natAbs ++ rest) := skipBlanks_of_head (by simp [Text.isBlank])
      have hyear : -(year.natAbs : Int) = year := by omega
      simp only [year?, String.toList_append, String.reduceToList, Text.toList_padded,
        List.cons_append, List.nil_append, hskip, hnumber, Option.map_some, hyear]
    · rename_i hpos
      have hskip : skipBlanks ('+' :: (paddedDigits 4 year.natAbs ++ rest)) =
          '+' :: (paddedDigits 4 year.natAbs ++ rest) := skipBlanks_of_head (by simp [Text.isBlank])
      have hyear : (year.natAbs : Int) = year := by omega
      simp only [year?, String.toList_append, String.reduceToList, Text.toList_padded,
        List.cons_append, List.nil_append, hskip, hnumber, Option.map_some, hyear]

/-- The digits of a fraction stand for as many nanoseconds as their place says. -/
theorem fraction?_paddedDigits {width n : Nat} (hwidth : 0 < width) (hnine : width ≤ 9)
    (hn : n < 10 ^ width) {rest : List Char} (hrest : EndsDigits rest) :
    fraction? ('.' :: (paddedDigits width n ++ rest)) = some (n * 10 ^ (9 - width), rest) := by
  have hlength := Text.length_paddedDigits hwidth hn
  have hall : (paddedDigits width n).take 9 = paddedDigits width n :=
    List.take_of_length_le (by omega)
  simp [fraction?, takeWhile_paddedDigits width n hrest, hall, hlength, Text.paddedDigits_ne_nil,
    Text.digitsValue_paddedDigits]

theorem fraction?_fractionText {n : Nat} (hn : n < 1000000000) {rest : List Char}
    (hrest : EndsDigits rest) (hpoint : rest.head? ≠ some '.') :
    fraction? ((fractionText n).toList ++ rest) = some (n, rest) := by
  rw [fractionText]
  split_ifs with hzero hmillis hmicros
  · subst hzero
    cases rest with
    | nil => rfl
    | cons c rest =>
      rw [String.toList_empty, List.nil_append, fraction?]
      rintro rest' ⟨rfl, -⟩
      exact hpoint rfl
  · have hread := fraction?_paddedDigits (by decide : 0 < 3) (by decide) (n := n / 1000000)
      (by omega) hrest
    have hvalue : n / 1000000 * 10 ^ (9 - 3) = n := by omega
    rw [hvalue] at hread
    simpa [Text.toList_padded] using hread
  · have hread := fraction?_paddedDigits (by decide : 0 < 6) (by decide) (n := n / 1000)
      (by omega) hrest
    have hvalue : n / 1000 * 10 ^ (9 - 6) = n := by omega
    rw [hvalue] at hread
    simpa [Text.toList_padded] using hread
  · have hread := fraction?_paddedDigits (by decide : 0 < 9) (by decide) hn hrest
    simpa [Text.toList_padded] using hread

/-! ## The whole text -/

theorem ofCivil?_civil (t : Timestamp) : ofCivil? t.civil = some t := by
  rw [ofCivil?, dif_pos t.valid]

theorem minutesEarlier_zero {t : CivilTime} (ht : t.isValid = true) : t.minutesEarlier 0 = t := by
  obtain ⟨year, month, day, hour, minute, second, nanosecond⟩ := t
  simp only [CivilTime.isValid, decide_eq_true_eq] at ht
  have hhour : ((hour * 60 + minute - 0 : Int) % 1440).toNat / 60 = hour := by omega
  have hminute : ((hour * 60 + minute - 0 : Int) % 1440).toNat % 60 = minute := by omega
  simp only [CivilTime.minutesEarlier, hhour, hminute]
  rw [if_neg (by omega), if_neg (by omega)]

theorem endsDigits_fractionText (n : Nat) : EndsDigits ((fractionText n).toList ++ ['Z']) := by
  rw [fractionText]
  split_ifs
  · exact endsDigits_cons rfl []
  · simpa using endsDigits_cons rfl _
  · simpa using endsDigits_cons rfl _
  · simpa using endsDigits_cons rfl _

theorem toList_toText (t : Timestamp) : t.toText.toList = (yearText t.civil.year).toList ++
    '-' :: (paddedDigits 2 t.civil.month ++ '-' :: (paddedDigits 2 t.civil.day ++
      'T' :: (paddedDigits 2 t.civil.hour ++ ':' :: (paddedDigits 2 t.civil.minute ++
        ':' :: (paddedDigits 2 t.civil.second ++
          ((fractionText t.civil.nanosecond).toList ++ ['Z'])))))) := by
  simp [toText, Text.toList_padded]

/-- The text of a point in time is read as this point in time. -/
theorem read?_toText (t : Timestamp) : read? t.toText = some t := by
  have hvalid := t.valid
  simp only [CivilTime.isValid, decide_eq_true_eq] at hvalid
  have hdays : daysInMonth t.civil.year t.civil.month ≤ 31 := by
    rw [daysInMonth]
    split_ifs <;> decide
  have hends : ∀ c : Char, c.isDigit = false → ∀ rest, EndsDigits (c :: rest) :=
    fun _ => endsDigits_cons
  have hbind : ∀ {α β : Type} (a : α) (f : α → Option β), (some a >>= f) = f a := fun _ _ => rfl
  have hdash : ∀ rest, mark? '-' ('-' :: rest) = some rest := mark?_cons rfl
  have hcolon : ∀ rest, mark? ':' (':' :: rest) = some rest := mark?_cons rfl
  have hfraction : fraction? ((fractionText t.civil.nanosecond).toList ++ ['Z']) =
      some (t.civil.nanosecond, ['Z']) :=
    fraction?_fractionText (by omega) (hends 'Z' rfl []) (by decide)
  have hoffset : offset? (skipBlanks ['Z']) = some (0, []) := by decide
  rw [read?, toList_toText, year?_yearText _ (hends '-' rfl _)]
  simp only [hbind, hdash]
  rw [part?_paddedDigits (by omega) (hends '-' rfl _)]
  simp only [hbind, hdash]
  rw [part?_paddedDigits (by omega) (hends 'T' rfl _)]
  simp only [hbind, true_or, if_true]
  rw [part?_paddedDigits (by omega) (hends ':' rfl _)]
  simp only [hbind, hcolon]
  rw [part?_paddedDigits (by omega) (hends ':' rfl _)]
  simp only [hbind, hcolon]
  rw [part?_paddedDigits (by omega) (endsDigits_fractionText _)]
  simp only [hbind, hfraction, hoffset]
  have hcivil : ofCivil? ⟨t.civil.year, t.civil.month, t.civil.day, t.civil.hour, t.civil.minute,
      t.civil.second, t.civil.nanosecond⟩ = some t := ofCivil?_civil t
  simp only [skipBlanks, List.dropWhile_nil, List.isEmpty_nil, Bool.not_true, Bool.false_eq_true,
    if_false, hcivil, hbind, minutesEarlier_zero t.valid]

end BenchCluster.Timestamp
