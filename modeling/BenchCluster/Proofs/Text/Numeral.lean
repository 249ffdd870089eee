import Mathlib
import BenchCluster.Text.Numeral

/-! # Decimal numerals read back

The value of the digits of a number is that number, also with zeros in front. A reader of numbers
below a bound takes the numerals of these numbers and no other texts.
-/

namespace BenchCluster.Text

theorem digitsValue_eq (digits : List Char) :
    digitsValue digits = Nat.ofDigitChars 10 digits 0 := by
  rw [digitsValue, Nat.ofDigitChars_eq_foldl]
  congr 1
  funext n c
  rw [Nat.mul_comm]
  rfl

theorem digitsValue_toDigits (n : Nat) : digitsValue (Nat.toDigits 10 n) = n := by
  rw [digitsValue_eq, Nat.ofDigitChars_ten_toDigits]

theorem isDigit_of_mem_toDigits {n : Nat} {c : Char} (h : c ∈ Nat.toDigits 10 n) :
    c.isDigit = true :=
  Nat.isDigit_of_mem_toDigits (by decide) (by decide) h

theorem head?_toDigits {n : Nat} (hn : 0 < n) : (Nat.toDigits 10 n).head? ≠ some '0' := by
  induction n using Nat.base_induction 10 (by decide) with
  | single m hm =>
    rw [Nat.toDigits_of_lt_base hm, List.head?_cons]
    simp only [ne_eq, Option.some.injEq, Nat.digitChar_eq_zero]
    omega
  | digit m k hk hm ih =>
    rw [← Nat.toDigits_append_toDigits (by decide) hm hk,
      List.head?_append_of_ne_nil _ Nat.toDigits_ne_nil]
    exact ih hm

def paddedDigits (width n : Nat) : List Char :=
  List.replicate (width - (Nat.toDigits 10 n).length) '0' ++ Nat.toDigits 10 n

theorem toList_padded (width n : Nat) : (padded width n).toList = paddedDigits width n := by
  rw [padded, String.toList_ofList, paddedDigits]

theorem digitsValue_paddedDigits (width n : Nat) : digitsValue (paddedDigits width n) = n := by
  rw [digitsValue_eq, paddedDigits, Nat.ofDigitChars_append, Nat.ofDigitChars_replicate_zero,
    Nat.mul_zero, Nat.ofDigitChars_ten_toDigits]

theorem isDigit_of_mem_paddedDigits {width n : Nat} {c : Char} (h : c ∈ paddedDigits width n) :
    c.isDigit = true := by
  rcases List.mem_append.1 h with hzero | hdigit
  · rw [List.eq_of_mem_replicate hzero]
    rfl
  · exact isDigit_of_mem_toDigits hdigit

theorem paddedDigits_ne_nil (width n : Nat) : paddedDigits width n ≠ [] := by
  simp [paddedDigits, Nat.toDigits_ne_nil]

/-- A number that has few enough digits gets exactly as many as are asked for. -/
theorem length_paddedDigits {width n : Nat} (hwidth : 0 < width) (hn : n < 10 ^ width) :
    (paddedDigits width n).length = width := by
  have hlength := (Nat.length_toDigits_le_iff (by decide) hwidth).2 hn
  rw [paddedDigits, List.length_append, List.length_replicate]
  omega

/-! ## Numbers below a bound -/

/-- A text is a numeral of a number: its digits, with or without a plus sign in front. -/
def IsNumeral (text : String) (n : Nat) : Prop :=
  ∃ digits, digits ≠ [] ∧ (∀ c ∈ digits, c.isDigit = true) ∧ digitsValue digits = n ∧
    (text.toList = digits ∨ text.toList = '+' :: digits)

theorem le_foldl_digits (digits : List Char) (n : Nat) :
    n ≤ digits.foldl (fun n c => n * 10 + digitValue c) n := by
  induction digits generalizing n with
  | nil => exact Nat.le_refl n
  | cons c rest ih =>
    have hrest := ih (n * 10 + digitValue c)
    rw [List.foldl_cons]
    omega

/-- The number that is read so far never exceeds the number in the end, so that only the latter has
to stay below the bound. -/
theorem readDigits_eq_ok_iff {bound n m : Nat} {digits : List Char} :
    readDigits bound n digits = .ok m ↔ (∀ c ∈ digits, c.isDigit = true) ∧
      digits.foldl (fun n c => n * 10 + digitValue c) n = m ∧ (digits = [] ∨ m < bound) := by
  induction digits generalizing n with
  | nil => simp [readDigits]
  | cons c rest ih =>
    rw [readDigits, List.forall_mem_cons, List.foldl_cons]
    by_cases hdigit : c.isDigit = true
    · by_cases hbound : n * 10 + digitValue c ≥ bound
      · have hle := le_foldl_digits rest (n * 10 + digitValue c)
        simp only [hdigit, hbound, Bool.not_true, Bool.false_eq_true, if_false, if_true, true_and,
          reduceCtorEq, false_iff, false_or, not_and]
        intro _ hm
        omega
      · simp only [hdigit, hbound, Bool.not_true, Bool.false_eq_true, if_false, true_and, ih,
          reduceCtorEq, false_or]
        refine and_congr_right fun _ => and_congr_right fun hm => ⟨?_, .inr⟩
        rintro (rfl | hm')
        · rw [List.foldl_nil] at hm
          omega
        · exact hm'
    · simp [hdigit]

theorem isNumeral_iff_of_plus {text : String} {digits : List Char} {n : Nat}
    (h : text.toList = '+' :: digits) :
    IsNumeral text n ↔
      digits ≠ [] ∧ (∀ c ∈ digits, c.isDigit = true) ∧ digitsValue digits = n := by
  rw [IsNumeral, h]
  constructor
  · rintro ⟨digits', hne, hall, hvalue, rfl | hsame⟩
    · exact absurd (hall '+' List.mem_cons_self) (by decide)
    · rw [(List.cons.inj hsame).2]
      exact ⟨hne, hall, hvalue⟩
  · exact fun ⟨hne, hall, hvalue⟩ => ⟨digits, hne, hall, hvalue, .inr rfl⟩

theorem isNumeral_iff_of_not_plus {text : String} {n : Nat}
    (h : ∀ digits, text.toList ≠ '+' :: digits) :
    IsNumeral text n ↔ text.toList ≠ [] ∧ (∀ c ∈ text.toList, c.isDigit = true) ∧
      digitsValue text.toList = n := by
  constructor
  · rintro ⟨digits, hne, hall, hvalue, hsame | hsame⟩
    · rw [hsame]
      exact ⟨hne, hall, hvalue⟩
    · exact absurd hsame (h digits)
  · exact fun ⟨hne, hall, hvalue⟩ => ⟨_, hne, hall, hvalue, .inl rfl⟩

/-- A number below the bound is read exactly from its numerals. -/
theorem readNat_eq_ok_iff {bound n : Nat} {text : String} :
    readNat bound text = .ok n ↔ IsNumeral text n ∧ n < bound := by
  have hdigits {digits : List Char} (hne : digits ≠ []) :
      readDigits bound 0 digits = .ok n ↔
        (digits ≠ [] ∧ (∀ c ∈ digits, c.isDigit = true) ∧ digitsValue digits = n) ∧ n < bound := by
    rw [readDigits_eq_ok_iff, or_iff_right hne, and_iff_right hne, and_assoc]
    rfl
  rw [readNat]
  split
  case h_1 htext => simp [isNumeral_iff_of_not_plus, htext]
  case h_2 htext => simp [isNumeral_iff_of_plus htext]
  case h_3 htext => simp [isNumeral_iff_of_not_plus, htext]
  case h_4 digits hne htext => rw [isNumeral_iff_of_plus htext, hdigits hne]
  case h_5 hne _ _ hplus => rw [isNumeral_iff_of_not_plus hplus, hdigits hne]

theorem isNumeral_toString (n : Nat) : IsNumeral (toString n) n :=
  ⟨Nat.toDigits 10 n, Nat.toDigits_ne_nil, fun _ hc => isDigit_of_mem_toDigits hc,
    digitsValue_toDigits n, .inl Nat.toList_repr⟩

theorem IsNumeral.not_mem {text : String} {n : Nat} (h : IsNumeral text n) {c : Char}
    (hdigit : c.isDigit = false) (hplus : c ≠ '+') : c ∉ text.toList := by
  obtain ⟨digits, -, hall, -, htext⟩ := h
  have hnot : c ∉ digits := fun hc => Bool.false_ne_true (hdigit.symm.trans (hall c hc))
  rcases htext with htext | htext <;> simp [htext, hnot, hplus]

end BenchCluster.Text
