import BenchCluster.Json.Reader
import BenchCluster.Json.Printer
import BenchCluster.Proofs.Text.Numeral

/-! # Reading strings and numerals back

A quoted text is read as the text itself, whatever characters it is made of, and the digits of a
natural number below 2 ^ 64 as that number. Both are told with any rest behind them.
-/

namespace BenchCluster.Json

/-! ## Strings -/

theorem hexValue?_hexDigit : ∀ n < 16, hexValue? (hexDigit n) = some n := by
  decide

/-- The four digits that escaped control characters are written in. -/
theorem unit?_control (c : Char) (hc : c.toNat < 0x20) :
    unit? '0' '0' (hexDigit (c.toNat / 16)) (hexDigit (c.toNat % 16)) = some c.toNat := by
  have hzero : hexValue? '0' = some 0 := by decide
  have hhigh := hexValue?_hexDigit (c.toNat / 16) (by omega)
  have hlow := hexValue?_hexDigit (c.toNat % 16) (by omega)
  simp only [unit?, hzero, hhigh, hlow, Option.bind_eq_bind, Option.bind_some, pure,
    Option.some.injEq]
  omega

/-- If a unit stands in front, it is well formed. Behind a unit the reader looks at a second one,
which could be half of the same character. -/
def UnitFollows (chars : List Char) : Prop :=
  ∀ e f g h rest, chars = '\\' :: 'u' :: e :: f :: g :: h :: rest → (unit? e f g h).isSome = true

theorem stringBody_unit {acc : Option (List Char)} {a b c d : Char} {n : Nat} {rest : List Char}
    (hn : unit? a b c d = some n) (hhigh : isHighHalf n = false) (hlow : isLowHalf n = false)
    (hrest : UnitFollows rest) :
    stringBody acc ('\\' :: 'u' :: a :: b :: c :: d :: rest) =
      stringBody (acc.map (Char.ofNat n :: ·)) rest := by
  rw [stringBody.eq_def]
  split
  · simp_all
  · simp_all
  · rename_i heq
    simp only [List.cons.injEq, true_and] at heq
    obtain ⟨rfl, rfl, rfl, rfl, rfl⟩ := heq
    obtain ⟨m, hm⟩ := Option.isSome_iff_exists.1 (hrest _ _ _ _ _ rfl)
    simp [hn, hm, hhigh, hlow]
  · rename_i heq
    simp only [List.cons.injEq, true_and] at heq
    obtain ⟨rfl, rfl, rfl, rfl, rfl⟩ := heq
    simp [hn, hhigh, hlow]
  · rename_i hshort heq
    simp only [List.cons.injEq, true_and] at heq
    obtain ⟨rfl, rfl⟩ := heq
    exact absurd rfl (hshort _ _ _ _ _ rfl)
  · rename_i hother heq
    simp only [List.cons.injEq] at heq
    obtain ⟨rfl, rfl⟩ := heq
    exact absurd rfl (hother _ _ rfl)

theorem stringBody_escaped {acc : Option (List Char)} {c x : Char} (hx : escaped? c = some x)
    (rest : List Char) :
    stringBody acc ('\\' :: c :: rest) = stringBody (acc.map (x :: ·)) rest := by
  have hu : c ≠ 'u' := by
    rintro rfl
    cases hx
  rw [stringBody.eq_def]
  split
  · simp_all
  · simp_all
  · simp_all
  · simp_all
  · simp_all
  · rename_i hother heq
    simp only [List.cons.injEq] at heq
    obtain ⟨rfl, rfl⟩ := heq
    exact absurd rfl (hother _ _ rfl)

theorem stringBody_plain {acc : Option (List Char)} {c : Char} (hquote : c ≠ '"')
    (hslash : c ≠ '\\') (hcontrol : ¬ c.toNat < 0x20) (rest : List Char) :
    stringBody acc (c :: rest) = stringBody (acc.map (c :: ·)) rest := by
  rw [stringBody.eq_def]
  split
  · simp_all
  · simp_all
  · simp_all
  · simp_all
  · simp_all
  · rename_i heq
    simp only [List.cons.injEq] at heq
    obtain ⟨rfl, rfl⟩ := heq
    rw [if_neg hcontrol]

theorem stringBody_escape (acc : Option (List Char)) (c : Char) {rest : List Char}
    (hrest : UnitFollows rest) :
    stringBody acc (escape c ++ rest) = stringBody (acc.map (c :: ·)) rest := by
  rw [escape]
  split_ifs with hquote hslash hback hfeed hline hreturn htab hcontrol
  · subst hquote
    exact stringBody_escaped rfl rest
  · subst hslash
    exact stringBody_escaped rfl rest
  · subst hback
    exact stringBody_escaped rfl rest
  · subst hfeed
    exact stringBody_escaped rfl rest
  · subst hline
    exact stringBody_escaped rfl rest
  · subst hreturn
    exact stringBody_escaped rfl rest
  · subst htab
    exact stringBody_escaped rfl rest
  · have hhigh : isHighHalf c.toNat = false := by simp [isHighHalf]; omega
    have hlow : isLowHalf c.toNat = false := by simp [isLowHalf]; omega
    refine (stringBody_unit (unit?_control c hcontrol) hhigh hlow hrest).trans ?_
    rw [Char.ofNat_toNat]
  · exact stringBody_plain hquote hslash hcontrol rest

theorem unitFollows_quote (rest : List Char) : UnitFollows ('"' :: rest) := by
  intro e f g h rest' heq
  cases heq

theorem unitFollows_escape (c : Char) (rest : List Char) : UnitFollows (escape c ++ rest) := by
  intro e f g h rest' heq
  rw [escape] at heq
  split_ifs at heq with hquote hslash hback hfeed hline hreturn htab hcontrol
  · simp at heq
  · simp at heq
  · simp at heq
  · simp at heq
  · simp at heq
  · simp at heq
  · simp at heq
  · -- The only units that are written.
    simp only [List.cons_append, List.nil_append, List.cons.injEq, true_and] at heq
    obtain ⟨rfl, rfl, rfl, rfl, -⟩ := heq
    rw [unit?_control c hcontrol]
    rfl
  · simp only [List.cons_append, List.cons.injEq] at heq
    exact absurd heq.1 hslash

/-- What is written for characters is read as these characters. -/
theorem stringBody_escapes (acc cs rest : List Char) :
    stringBody (some acc) (cs.flatMap escape ++ '"' :: rest) =
      some (some (acc.reverse ++ cs), rest) := by
  induction cs generalizing acc with
  | nil => simp [stringBody]
  | cons c cs ih =>
    have hfollows : UnitFollows (cs.flatMap escape ++ '"' :: rest) := by
      cases cs with
      | nil => exact unitFollows_quote rest
      | cons x cs =>
        rw [List.flatMap_cons, List.append_assoc]
        exact unitFollows_escape x _
    rw [List.flatMap_cons, List.append_assoc, stringBody_escape _ c hfollows, Option.map_some, ih]
    simp

/-- What is written for a text is read as this text. -/
theorem stringBody_text (s : String) (rest : List Char) :
    stringBody (some []) (s.toList.flatMap escape ++ '"' :: rest) = some (some s.toList, rest) :=
  stringBody_escapes [] s.toList rest

/-! ## Numerals -/

/-- A rest that does not go on with a numeral. -/
def EndsNumeral (rest : List Char) : Prop :=
  ∀ c ∈ rest.head?, c.isDigit = false ∧ c ≠ '.' ∧ c ≠ 'e' ∧ c ≠ 'E'

theorem digits_append {ds rest : List Char} (hds : ∀ c ∈ ds, c.isDigit = true)
    (hrest : EndsNumeral rest) : digits (ds ++ rest) = (ds, rest) := by
  have hstop : rest.takeWhile Char.isDigit = [] ∧ rest.dropWhile Char.isDigit = rest := by
    cases rest with
    | nil => exact ⟨rfl, rfl⟩
    | cons c rest =>
      obtain ⟨hc, -⟩ := hrest c rfl
      simp [hc]
  rw [digits, List.takeWhile_append_of_pos hds, List.dropWhile_append_of_pos hds, hstop.1, hstop.2,
    List.append_nil]

theorem exponent?_of_endsNumeral {rest : List Char} (hrest : EndsNumeral rest) :
    exponent? rest = some (none, rest) := by
  cases rest with
  | nil => rfl
  | cons c rest =>
    obtain ⟨-, -, he, hE⟩ := hrest c rfl
    have hmark : ¬ (c = 'e' ∨ c = 'E') := by simp [he, hE]
    simp only [exponent?, if_neg hmark]

theorem value_toDigits (n : Nat) : value (Nat.toDigits 10 n) = n := Text.digitsValue_toDigits n

theorem numeral?_toDigits (n : Nat) {rest : List Char} (hrest : EndsNumeral rest) :
    numeral? false (Nat.toDigits 10 n ++ rest) =
      some (⟨false, Nat.toDigits 10 n, [], none⟩, rest) := by
  have hlead : ¬ ((Nat.toDigits 10 n).isEmpty = true ∨
      ((Nat.toDigits 10 n).length > 1 ∧ (Nat.toDigits 10 n).head? = some '0')) := by
    rintro (hempty | ⟨hlength, hhead⟩)
    · exact Nat.toDigits_ne_nil (List.isEmpty_iff.1 hempty)
    · rcases Nat.eq_zero_or_pos n with rfl | hn
      · simp at hlength
      · exact Text.head?_toDigits hn hhead
  rw [numeral?, digits_append (fun c hc => Text.isDigit_of_mem_toDigits hc) hrest]
  simp only [if_neg hlead]
  split
  · obtain ⟨-, hpoint, -⟩ := hrest '.' rfl
    exact absurd rfl hpoint
  · rw [exponent?_of_endsNumeral hrest]
    rfl

theorem toData_numeral {n : Nat} (hn : n < UInt64.size) :
    Numeral.toData ⟨false, Nat.toDigits 10 n, [], none⟩ = .integer n := by
  simp [Numeral.toData, value_toDigits, hn]

end BenchCluster.Json
