import TimedCache.Json.Lexeme
import TimedCache.Proofs.Bytes

/-!
# Written strings are read back

A string that is text is read back from its written form, whatever follows it (`readString_foldr`).

**Escapes.**  What is written for a byte has one of three shapes (`Escape`): the byte itself, a
backslash and a letter, or a numeric escape.  All that the readers need to know of each shape is
proved once, byte by byte: none of the three ends the string (`cutStringOn_escapeOnto`), and each is
read as the byte it stands for in one round (`unescapeOn_escapeOnto`).
-/

namespace TimedCache.Json

/-! ### Escapes -/

/-- The shape of what is written for a byte. -/
inductive Escape (b : UInt8) : Prop where
  /-- The byte stands for itself. -/
  | plain (ne : b ≠ 0x22) (ne' : b ≠ 0x5C) (printable : ¬b < 0x20)
    (eq : ∀ rest, escapeOnto b rest = b :: rest)
  /-- A backslash and a letter. -/
  | letter (c : UInt8) (ne : c ≠ 0x75) (stands : letterEscape? c = some b)
    (eq : ∀ rest, escapeOnto b rest = 0x5C :: c :: rest)
  /-- A numeric escape of a control character. -/
  | numeric (control : b < 0x20)
    (eq : ∀ rest, escapeOnto b rest =
      0x5C :: 0x75 :: 0x30 :: 0x30 :: hexDigit (b.toNat / 16) :: hexDigit (b.toNat % 16) :: rest)

theorem escape (b : UInt8) : Escape b := by
  by_cases quote : b = 0x22
  · exact .letter 0x22 (by decide) (by rw [quote]; rfl) fun _ => by rw [quote]; rfl
  by_cases backslash : b = 0x5C
  · exact .letter 0x5C (by decide) (by rw [backslash]; rfl) fun _ => by rw [backslash]; rfl
  by_cases backspace : b = 0x08
  · exact .letter 0x62 (by decide) (by rw [backspace]; rfl) fun _ => by rw [backspace]; rfl
  by_cases formFeed : b = 0x0C
  · exact .letter 0x66 (by decide) (by rw [formFeed]; rfl) fun _ => by rw [formFeed]; rfl
  by_cases lineFeed : b = 0x0A
  · exact .letter 0x6E (by decide) (by rw [lineFeed]; rfl) fun _ => by rw [lineFeed]; rfl
  by_cases carriageReturn : b = 0x0D
  · exact .letter 0x72 (by decide) (by rw [carriageReturn]; rfl) fun _ => by rw [carriageReturn]; rfl
  by_cases tab : b = 0x09
  · exact .letter 0x74 (by decide) (by rw [tab]; rfl) fun _ => by rw [tab]; rfl
  by_cases control : b < 0x20
  · refine .numeric control fun rest => ?_
    simp only [escapeOnto, if_neg quote, if_neg backslash, if_neg backspace, if_neg formFeed,
      if_neg lineFeed, if_neg carriageReturn, if_neg tab, if_pos control]
  · refine .plain quote backslash control fun rest => ?_
    simp only [escapeOnto, if_neg quote, if_neg backslash, if_neg backspace, if_neg formFeed,
      if_neg lineFeed, if_neg carriageReturn, if_neg tab, if_neg control]

/-- What is written for a byte does not depend on what follows. -/
theorem escapeOnto_eq (b : UInt8) (rest : Bytes) : escapeOnto b rest = escapeOnto b [] ++ rest := by
  cases escape b with
  | plain _ _ _ eq => rw [eq, eq []]; rfl
  | letter _ _ _ eq => rw [eq, eq []]; rfl
  | numeric _ eq => rw [eq, eq []]; rfl

/-- At least one byte is written for a byte. -/
theorem length_escapeOnto (b : UInt8) (rest : Bytes) :
    rest.length < (escapeOnto b rest).length := by
  cases escape b with
  | plain _ _ _ eq => rw [eq, List.length_cons]; omega
  | letter _ _ _ eq => rw [eq, List.length_cons, List.length_cons]; omega
  | numeric _ eq => simp only [eq, List.length_cons]; omega

/-! ### Finding the end -/

/-- A byte that stands for itself is passed. -/
theorem cutStringOn_plain {b : UInt8} (quote : b ≠ 0x22) (backslash : b ≠ 0x5C)
    (printable : ¬b < 0x20) (taken rest : Bytes) :
    cutStringOn taken (b :: rest) = cutStringOn (b :: taken) rest := by
  rw [cutStringOn.eq_def]
  simp only [if_neg quote, if_neg backslash, if_neg printable]

/-- A digit of a numeric escape does not end the string. -/
theorem cutStringOn_hexDigit {n : Nat} (lt : n < 16) (taken rest : Bytes) :
    cutStringOn taken (hexDigit n :: rest) = cutStringOn (hexDigit n :: taken) rest := by
  have plain : ∀ n < 16, hexDigit n ≠ 0x22 ∧ hexDigit n ≠ 0x5C ∧ ¬hexDigit n < 0x20 := by decide
  obtain ⟨quote, backslash, printable⟩ := plain n lt
  exact cutStringOn_plain quote backslash printable taken rest

/-- What is written for a byte is passed. -/
theorem cutStringOn_escapeOnto (taken : Bytes) (b : UInt8) (rest : Bytes) :
    cutStringOn taken (escapeOnto b rest) =
      cutStringOn ((escapeOnto b []).reverse ++ taken) rest := by
  cases escape b with
  | plain quote backslash control eq =>
      rw [eq, eq [], cutStringOn_plain quote backslash control]
      rfl
  | letter c _ _ eq =>
      rw [eq, eq []]
      rfl
  | numeric control eq =>
      have high : b.toNat / 16 < 16 := by have := b.toNat_lt; omega
      have low : b.toNat % 16 < 16 := Nat.mod_lt _ (by decide)
      rw [eq, eq []]
      show cutStringOn _ (hexDigit 0 :: hexDigit 0 :: _) = _
      rw [cutStringOn_hexDigit (by decide), cutStringOn_hexDigit (by decide),
        cutStringOn_hexDigit high, cutStringOn_hexDigit low]
      rfl

/-- The written string is cut off at its closing quotation mark. -/
theorem cutStringOn_foldr (taken content rest : Bytes) :
    cutStringOn taken (content.foldr escapeOnto (0x22 :: rest)) =
      some (taken.reverse ++ content.foldr escapeOnto [], rest) := by
  induction content generalizing taken with
  | nil => simp [cutStringOn.eq_def taken (0x22 :: rest)]
  | cons b content ih =>
      rw [List.foldr_cons, cutStringOn_escapeOnto, ih, List.foldr_cons,
        escapeOnto_eq b (content.foldr escapeOnto [])]
      simp

/-! ### Escapes stand for their bytes -/

/-- A numeric escape of a control character stands for that character. -/
theorem readPointEscape_control {b : UInt8} (control : b < 0x20) (rest : Bytes) :
    readPointEscape
        (0x30 :: 0x30 :: hexDigit (b.toNat / 16) :: hexDigit (b.toNat % 16) :: rest) =
      some ([b], rest) := by
  have lt : b.toNat < 32 := UInt8.lt_iff_toNat_lt.mp control
  have high := Bytes.hexValue?_hexDigit (n := b.toNat / 16) (by omega)
  have low := Bytes.hexValue?_hexDigit (n := b.toNat % 16) (by omega)
  have zero : hexValue? 0x30 = some 0 := rfl
  have unit : 4096 * 0 + 256 * 0 + 16 * (b.toNat / 16) + b.toNat % 16 = b.toNat := by omega
  have word : readHexWord
      (0x30 :: 0x30 :: hexDigit (b.toNat / 16) :: hexDigit (b.toNat % 16) :: rest) =
      some (b.toNat, rest) := by
    simp only [readHexWord, zero, high, low, unit]
  have point : ∀ n < 32, encodePoint n = [n.toUInt8] := by decide
  have notLow : (decide (0xDC00 ≤ b.toNat) && decide (b.toNat ≤ 0xDFFF)) = false := by
    rw [decide_eq_false (by omega), Bool.false_and]
  have notHigh : (decide (0xD800 ≤ b.toNat) && decide (b.toNat ≤ 0xDBFF)) = false := by
    rw [decide_eq_false (by omega), Bool.false_and]
  simp only [readPointEscape, word, notLow, notHigh, Bool.false_eq_true, if_false, point _ lt]
  rw [show b.toNat.toUInt8 = b from UInt8.ofNat_toNat]

/-- What is written for a byte is read as that byte, in one round. -/
theorem unescapeOn_escapeOnto (fuel : Nat) (taken : Bytes) (b : UInt8) (rest : Bytes) :
    unescapeOn (fuel + 1) taken (escapeOnto b rest) = unescapeOn fuel (b :: taken) rest := by
  cases escape b with
  | plain _ backslash _ eq => rw [eq, unescapeOn, if_neg backslash]
  | letter c notNumeric stands eq =>
      have one : readEscape (c :: rest) = some ([b], rest) := by
        simp only [readEscape, if_neg notNumeric, stands]
      simp only [eq, unescapeOn, if_true, one]
      rfl
  | numeric control eq =>
      have one : readEscape (0x75 :: 0x30 :: 0x30 :: hexDigit (b.toNat / 16)
          :: hexDigit (b.toNat % 16) :: rest) = some ([b], rest) :=
        readPointEscape_control control rest
      simp only [eq, unescapeOn, if_true, one]
      rfl

/-- A written string stands for what was written. -/
theorem unescapeOn_foldr {fuel : Nat} (taken content : Bytes) (enough : content.length ≤ fuel) :
    unescapeOn fuel taken (content.foldr escapeOnto []) = some (taken.reverse ++ content) := by
  induction content generalizing fuel taken with
  | nil => simp [unescapeOn]
  | cons b content ih =>
      obtain ⟨fuel, rfl⟩ := Nat.exists_eq_add_of_lt enough
      rw [List.foldr_cons, unescapeOn_escapeOnto, ih _ (Nat.le_add_right _ _)]
      simp

/-- A string is not longer than what is written for it. -/
theorem length_le_foldr (content : Bytes) :
    content.length ≤ (content.foldr escapeOnto []).length := by
  induction content with
  | nil => exact Nat.le_refl 0
  | cons b content ih => exact Nat.lt_of_le_of_lt ih (length_escapeOnto b _)

/-! ### Whole strings -/

/-- **A written string is read back**, whatever follows it. -/
theorem readString_foldr {content : Bytes} (text : content.isText = true) (rest : Bytes) :
    readString (content.foldr escapeOnto (0x22 :: rest)) = some (content, rest) := by
  have cut : cutString (content.foldr escapeOnto (0x22 :: rest)) =
      some (content.foldr escapeOnto [], rest) := cutStringOn_foldr [] content rest
  have stands : unescape (content.foldr escapeOnto []) = some content := by
    rw [unescape, unescapeOn_foldr [] content (length_le_foldr content)]
    exact Option.filter_some_pos text
  simp only [readString, cut, stands, Option.map_some]

end TimedCache.Json
