import TimedCache.Text.Decimal

/-!
# Decimal text is read back

The canonical text of a number consists of decimal digits, at least one of them, and they stand for
the number.  So every reader of numbers gets back what was written, as long as the number is within
its bound: a natural number (`readNat?_natText`) as well as one with a sign (`readInt64?_intText`).

Readers take more than the canonical text: a sign that is not needed, and zeros in front
(`readNat?_eq_some_iff`, `readInt64?_eq_some_iff`).

## Main Definitions

* `IsDecimal` — digits that stand for a natural number
* `DenotesNat`, `Denotes` — text that stands for a number, canonical or not
-/

namespace TimedCache

/-- The digit of a number below ten. -/
theorem digit_toNat {n : Nat} (lt : n < 10) : ((0x30 + n).toUInt8).toNat = 0x30 + n := by
  show (0x30 + n) % 256 = 0x30 + n
  omega

/-- It is a decimal digit. -/
theorem isDigitByte_digit {n : Nat} (lt : n < 10) : isDigitByte (0x30 + n).toUInt8 = true := by
  have value := digit_toNat lt
  unfold isDigitByte
  rw [Bool.and_eq_true, decide_eq_true_iff, decide_eq_true_iff, UInt8.le_iff_toNat_le,
    UInt8.le_iff_toNat_le, value]
  exact ⟨Nat.le_add_right 0x30 n, Nat.add_le_add_left (Nat.le_of_lt_succ lt) 0x30⟩

/-- A digit behind other digits. -/
theorem digitsValue_concat (digits : Bytes) (d : UInt8) :
    digitsValue (digits ++ [d]) = 10 * digitsValue digits + (d.toNat - 0x30) := by
  rw [digitsValue, List.foldl_append]
  rfl

/-- Digits, at least one, that stand for a number. -/
structure IsDecimal (digits : Bytes) (n : Nat) : Prop where
  nonempty : digits ≠ []
  digit : digits.all isDigitByte = true
  value : digitsValue digits = n

/-- What is put in front are the digits of the number. -/
theorem digitsOnto_eq {fuel n : Nat} (enough : n < fuel) (rest : Bytes) :
    ∃ digits, digitsOnto fuel n rest = digits ++ rest ∧ IsDecimal digits n := by
  induction fuel generalizing n rest with
  | zero => exact absurd enough (Nat.not_lt_zero n)
  | succ fuel ih =>
      have small : n % 10 < 10 := Nat.mod_lt n (by decide)
      have digit := isDigitByte_digit small
      have value := digit_toNat small
      rw [digitsOnto]
      by_cases one : n < 10
      · rw [if_pos one]
        refine ⟨[(0x30 + n % 10).toUInt8], rfl, List.cons_ne_nil _ _, ?_, ?_⟩
        · rw [List.all_cons, digit, List.all_nil, Bool.and_true]
        · show 10 * 0 + ((0x30 + n % 10).toUInt8.toNat - 0x30) = n
          rw [value]
          omega
      · rw [if_neg one]
        have fewer : n / 10 < fuel := by omega
        obtain ⟨digits, eq, decimal⟩ := ih fewer ((0x30 + n % 10).toUInt8 :: rest)
        refine ⟨digits ++ [(0x30 + n % 10).toUInt8], ?_, ?_, ?_, ?_⟩
        · rw [eq, List.append_assoc]
          rfl
        · exact List.append_ne_nil_of_right_ne_nil digits (List.cons_ne_nil _ _)
        · rw [List.all_append, decimal.digit, List.all_cons, digit, List.all_nil]
          rfl
        · rw [digitsValue_concat, decimal.value, value]
          omega

/-- The canonical text of a number is made of its digits. -/
theorem isDecimal_natText (n : Nat) : IsDecimal (natText n) n := by
  obtain ⟨digits, eq, decimal⟩ := digitsOnto_eq (Nat.lt_succ_self n) []
  rw [natText, eq, List.append_nil]
  exact decimal

/-- The text of a number determines it. -/
theorem natText_injective : Function.Injective natText := by
  intro n m same
  rw [← (isDecimal_natText n).value, same, (isDecimal_natText m).value]

/-- A number in front of a colon can be told from what follows it. -/
theorem natText_append_colon_inj {n m : Nat} {rest rest' : Bytes}
    (same : natText n ++ 0x3A :: rest = natText m ++ 0x3A :: rest') : n = m ∧ rest = rest' := by
  have digits (n : Nat) (rest : Bytes) :
      (natText n ++ 0x3A :: rest).takeWhile isDigitByte = natText n := by
    rw [List.takeWhile_append_of_pos (List.all_eq_true.mp (isDecimal_natText n).digit),
      List.takeWhile_cons_of_neg (by decide), List.append_nil]
  have front := congrArg (List.takeWhile isDigitByte) same
  rw [digits, digits] at front
  rw [front] at same
  exact ⟨natText_injective front, (List.cons.inj (List.append_cancel_left same)).2⟩

/-- The canonical text of a positive number does not start with a zero. -/
theorem digitsOnto_eq_cons {fuel n : Nat} (enough : n < fuel) (pos : 0 < n) (rest : Bytes) :
    ∃ d digits, digitsOnto fuel n rest = d :: digits ∧ d ≠ 0x30 := by
  induction fuel generalizing n rest with
  | zero => exact absurd enough (Nat.not_lt_zero n)
  | succ fuel ih =>
      rw [digitsOnto]
      by_cases one : n < 10
      · rw [if_pos one]
        refine ⟨_, rest, rfl, fun zero => ?_⟩
        have value := digit_toNat (Nat.mod_lt n (by decide : 0 < 10))
        rw [zero] at value
        have none : 0x30 + 0 = 0x30 + n % 10 := value
        omega
      · rw [if_neg one]
        exact ih (by omega) (by omega) _

/-- A leading zero is the only digit. -/
theorem length_natText_of_head {n : Nat} (zero : (natText n).head? = some 0x30) :
    (natText n).length = 1 := by
  rcases Nat.eq_zero_or_pos n with rfl | pos
  · rfl
  · obtain ⟨d, digits, eq, ne⟩ := digitsOnto_eq_cons (Nat.lt_succ_self n) pos []
    rw [natText, eq] at zero
    exact absurd (Option.some.inj zero) ne

theorem IsDecimal.readDigits? {digits : Bytes} {n : Nat} (decimal : IsDecimal digits n) :
    readDigits? digits = some n := by
  have nonempty : digits.isEmpty = false := List.isEmpty_eq_false_iff.mpr decimal.nonempty
  rw [TimedCache.readDigits?, nonempty, decimal.digit, decimal.value]
  rfl

/-- Text that stands for a number: an optional sign, and then digits and nothing else. -/
def Denotes (text : Bytes) (n : Int) : Prop :=
  ∃ digits m, IsDecimal digits m ∧
    ((n = Int.ofNat m ∧ (text = digits ∨ text = 0x2B :: digits)) ∨
      (n = -Int.ofNat m ∧ text = 0x2D :: digits))

theorem readDigits?_eq_some_iff {digits : Bytes} {n : Nat} :
    readDigits? digits = some n ↔ IsDecimal digits n := by
  refine ⟨fun read => ?_, IsDecimal.readDigits?⟩
  unfold readDigits? at read
  split at read
  next digit =>
    obtain ⟨nonempty, digit⟩ := Bool.and_eq_true_iff.mp digit
    refine ⟨fun empty => ?_, digit, Option.some.inj read⟩
    rw [empty] at nonempty
    cases nonempty
  next => cases read

/-- A sign is no digit. -/
theorem not_isDecimal_cons {sign : UInt8} (noDigit : isDigitByte sign = false) {rest : Bytes}
    {m : Nat} : ¬IsDecimal (sign :: rest) m := fun decimal => by
  have digit := decimal.digit
  rw [List.all_cons, noDigit] at digit
  cases digit

/-- Text that stands for a natural number: digits and nothing else, but perhaps for a plus sign. -/
def DenotesNat (text : Bytes) (n : Nat) : Prop :=
  ∃ digits, IsDecimal digits n ∧ (text = digits ∨ text = 0x2B :: digits)

/-- **What is read** is text that stands for a natural number below the bound. -/
theorem readNat?_eq_some_iff {bound n : Nat} {text : Bytes} :
    readNat? bound text = some n ↔ n < bound ∧ DenotesNat text n := by
  unfold readNat?
  extract_lets digits
  have denotes : readDigits? digits = some n ↔ DenotesNat text n := by
    rw [readDigits?_eq_some_iff]
    unfold digits
    split
    next rest =>
      refine ⟨fun decimal => ⟨rest, decimal, .inr rfl⟩, ?_⟩
      rintro ⟨digits, decimal, rfl | same⟩
      · exact absurd decimal (not_isDecimal_cons rfl)
      · exact (List.cons.inj same).2 ▸ decimal
    next noPlus =>
      refine ⟨fun decimal => ⟨text, decimal, .inl rfl⟩, ?_⟩
      rintro ⟨digits, decimal, rfl | same⟩
      · exact decimal
      · exact absurd same (noPlus digits)
  rw [← denotes]
  cases readDigits? digits with
  | none => simp
  | some m =>
      rw [Option.ite_none_right_eq_some]
      refine and_congr_left fun same => ?_
      rw [Option.some.inj same]

/-- **What is written is read back**, below the bound of the reader. -/
theorem readNat?_natText {bound n : Nat} (lt : n < bound) :
    readNat? bound (natText n) = some n :=
  readNat?_eq_some_iff.mpr ⟨lt, natText n, isDecimal_natText n, .inl rfl⟩

/-- A number that is too great is not read. -/
theorem readNat?_natText_of_le {bound n : Nat} (le : bound ≤ n) : readNat? bound (natText n) = none := by
  cases reads : readNat? bound (natText n) with
  | none => rfl
  | some other =>
      obtain ⟨lt, denotes⟩ := readNat?_eq_some_iff.mp reads
      have again : readNat? (n + 1) (natText n) = some other :=
        readNat?_eq_some_iff.mpr ⟨by omega, denotes⟩
      rw [readNat?_natText (Nat.lt_succ_self n)] at again
      cases again
      omega

/-- **What is read** is text that stands for a number within a signed 64-bit word. -/
theorem readInt64?_eq_some_iff {text : Bytes} {n : Int} :
    readInt64? text = some n ↔ fitsInt64 n = true ∧ Denotes text n := by
  have magnitude (sign : Nat → Int) (digits : Bytes) :
      (readDigits? digits).map sign = some n ↔ ∃ m, IsDecimal digits m ∧ n = sign m := by
    rw [Option.map_eq_some_iff]
    exact exists_congr fun m => and_congr readDigits?_eq_some_iff eq_comm
  unfold readInt64?
  extract_lets magnitude?
  have denotes : magnitude? = some n ↔ Denotes text n := by
    unfold magnitude?
    split
    next rest =>
      rw [magnitude]
      constructor
      · rintro ⟨m, decimal, eq⟩
        exact ⟨rest, m, decimal, .inl ⟨eq, .inr rfl⟩⟩
      · rintro ⟨digits, m, decimal, ⟨eq, rfl | same⟩ | ⟨_, same⟩⟩
        · exact absurd decimal (not_isDecimal_cons rfl)
        · exact ⟨m, (List.cons.inj same).2 ▸ decimal, eq⟩
        · cases (List.cons.inj same).1
    next rest =>
      rw [magnitude fun m => -Int.ofNat m]
      constructor
      · rintro ⟨m, decimal, eq⟩
        exact ⟨rest, m, decimal, .inr ⟨eq, rfl⟩⟩
      · rintro ⟨digits, m, decimal, ⟨_, rfl | same⟩ | ⟨eq, same⟩⟩
        · exact absurd decimal (not_isDecimal_cons rfl)
        · cases (List.cons.inj same).1
        · exact ⟨m, (List.cons.inj same).2 ▸ decimal, eq⟩
    next noPlus noMinus =>
      rw [magnitude]
      constructor
      · rintro ⟨m, decimal, eq⟩
        exact ⟨text, m, decimal, .inl ⟨eq, .inl rfl⟩⟩
      · rintro ⟨digits, m, decimal, ⟨eq, rfl | same⟩ | ⟨_, same⟩⟩
        · exact ⟨m, decimal, eq⟩
        · exact absurd same (noPlus digits)
        · exact absurd same (noMinus digits)
  rw [← denotes]
  cases magnitude? with
  | none =>
      constructor
      · intro read
        cases read
      · rintro ⟨-, read⟩
        cases read
  | some m =>
      constructor
      · intro read
        dsimp only at read
        split at read
        next fits => exact ⟨Option.some.inj read ▸ fits, read⟩
        next => cases read
      · rintro ⟨fits, ⟨⟩⟩
        exact if_pos fits

/-- The canonical text of a number stands for it. -/
theorem denotes_intText (n : Int) : Denotes (intText n) n := by
  cases n with
  | ofNat n => exact ⟨natText n, n, isDecimal_natText n, .inl ⟨rfl, .inl rfl⟩⟩
  | negSucc n => exact ⟨natText (n + 1), n + 1, isDecimal_natText (n + 1), .inr ⟨rfl, rfl⟩⟩

/-- **A signed number is read back**, if it fits into a signed 64-bit word. -/
theorem readInt64?_intText {n : Int} (fits : fitsInt64 n = true) :
    readInt64? (intText n) = some n :=
  readInt64?_eq_some_iff.mpr ⟨fits, denotes_intText n⟩

end TimedCache
