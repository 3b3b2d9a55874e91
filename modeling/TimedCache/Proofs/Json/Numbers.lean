import TimedCache.Json.Lexeme
import TimedCache.Proofs.Text.Decimal

/-!
# Written numbers are read back

A natural number of 64 bits is read back from its decimal text, whatever follows it, as long as that
does not lengthen the number (`readNumber_natText`).

**Significands.**  Digits are collected for as long as the significand stays within 64 bits.  It
only grows (`le_foldl_digits`), so digits that stand for a number of 64 bits are all collected
(`appendDigits_eq`).
-/

namespace TimedCache.Json

/-- Whether a text does not lengthen a number in front of it. -/
def endsNumber (rest : Bytes) : Bool :=
  rest.head?.all fun b => !isDigitByte b && b ≠ 0x2E && b ≠ 0x65 && b ≠ 0x45

/-! ### Significands -/

theorem le_foldl_digits (digits : Bytes) (significand : Nat) :
    significand ≤ digits.foldl (fun value d => 10 * value + (d.toNat - 0x30)) significand := by
  induction digits generalizing significand with
  | nil => exact Nat.le_refl _
  | cons d digits ih =>
      have grown : significand ≤ 10 * significand + (d.toNat - 0x30) := by omega
      exact Nat.le_trans grown (ih _)

/-- Digits that stay within 64 bits are all collected. -/
theorem appendDigits_eq {significand : Nat} {digits : Bytes}
    (fits : digits.foldl (fun value d => 10 * value + (d.toNat - 0x30)) significand < word64) :
    appendDigits significand digits =
      (digits.foldl (fun value d => 10 * value + (d.toNat - 0x30)) significand, 0) := by
  induction digits generalizing significand with
  | nil => rfl
  | cons d digits ih =>
      have next : 10 * significand + digitValue d < word64 :=
        Nat.lt_of_le_of_lt (le_foldl_digits digits _) fits
      simp only [appendDigits, if_pos next]
      exact ih fits

/-! ### The grammar -/

/-- Digits are taken up to the first byte that is none. -/
theorem takeDigits_append {digits rest : Bytes} (all : digits.all isDigitByte = true)
    (ends : endsNumber rest = true) : takeDigits (digits ++ rest) = (digits, rest) := by
  have each : ∀ d ∈ digits, isDigitByte d = true := List.all_eq_true.mp all
  have stop : rest.takeWhile isDigitByte = [] ∧ rest.dropWhile isDigitByte = rest := by
    cases rest with
    | nil => exact ⟨rfl, rfl⟩
    | cons b rest =>
        have noDigit : isDigitByte b = false := by
          simp only [endsNumber, List.head?_cons, Option.all_some, Bool.and_eq_true] at ends
          simpa using ends.1.1.1
        exact ⟨List.takeWhile_cons_of_neg (Bool.eq_false_iff.mp noDigit),
          List.dropWhile_cons_of_neg (Bool.eq_false_iff.mp noDigit)⟩
  rw [takeDigits, List.takeWhile_append_of_pos each, List.dropWhile_append_of_pos each, stop.1,
    stop.2, List.append_nil]

/-- Nothing of what follows belongs to the number. -/
theorem readExponent_of_ends {rest : Bytes} (ends : endsNumber rest = true)
    (whole fraction : Bytes) :
    readExponent whole fraction rest = some (⟨whole, fraction, false, none⟩, rest) := by
  cases rest with
  | nil => rfl
  | cons b rest =>
      simp only [endsNumber, List.head?_cons, Option.all_some, Bool.and_eq_true,
        decide_eq_true_eq, ne_eq] at ends
      have noExponent : (decide (b = 0x65) || decide (b = 0x45)) = false := by
        simp [ends.1.2, ends.2]
      simp only [readExponent, noExponent, Bool.false_eq_true, if_false]

theorem readNumberParts_natText (n : Nat) {rest : Bytes} (ends : endsNumber rest = true) :
    readNumberParts (natText n ++ rest) = some (⟨natText n, [], false, none⟩, rest) := by
  have decimal := isDecimal_natText n
  have some : (natText n).isEmpty = false := List.isEmpty_eq_false_iff.mpr decimal.nonempty
  have noLeadingZero :
      (decide ((natText n).head? = .some 0x30) && decide ((natText n).length ≠ 1)) = false := by
    rw [Bool.and_eq_false_iff, decide_eq_false_iff_not, decide_eq_false_iff_not]
    exact (Decidable.em _).symm.imp id fun zero => not_not_intro (length_natText_of_head zero)
  have noFraction : rest.head? ≠ .some 0x2E := by
    intro point
    simp [endsNumber, point] at ends
  simp only [readNumberParts, takeDigits_append decimal.digit ends, some, noLeadingZero,
    Bool.or_false, Bool.false_eq_true, if_false, if_neg noFraction, readExponent_of_ends ends]

/-- The text of a number starts with a digit. -/
theorem natText_eq_cons (n : Nat) : ∃ d digits, natText n = d :: digits ∧ isDigitByte d = true := by
  have decimal := isDecimal_natText n
  obtain ⟨d, digits, eq⟩ := List.exists_cons_of_ne_nil decimal.nonempty
  refine ⟨d, digits, eq, List.all_eq_true.mp decimal.digit d ?_⟩
  rw [eq]
  exact List.mem_cons_self

/-- The digits of a number of 64 bits stand for the number. -/
theorem value?_natText {n : Nat} (fits : n < word64) :
    NumberParts.value? false ⟨natText n, [], false, none⟩ = some (.int n) := by
  have value : (natText n).foldl (fun value d => 10 * value + (d.toNat - 0x30)) 0 = n :=
    (isDecimal_natText n).value
  have collected : appendDigits 0 (natText n) = (n, 0) := by
    rw [appendDigits_eq (value.symm ▸ fits), value]
  simp only [NumberParts.value?, collected, appendDigits]
  rfl

/-- **A written number is read back**, whatever follows it. -/
theorem readNumber_natText {n : Nat} (fits : n < word64) {rest : Bytes}
    (ends : endsNumber rest = true) :
    readNumber (natText n ++ rest) = some (.int n, rest) := by
  have unsigned : (natText n ++ rest).head? ≠ some 0x2D := by
    obtain ⟨d, digits, eq, digit⟩ := natText_eq_cons n
    rw [eq]
    rintro ⟨⟩
    cases digit
  simp only [readNumber, if_neg unsigned, readNumberParts_natText n ends,
    decide_eq_false unsigned, value?_natText fits, Option.map_some]

end TimedCache.Json
