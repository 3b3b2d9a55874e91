import Mathlib
import TimedCache.Bytes

/-!
# Facts on byte strings

**Hexadecimal text** is read back (`Bytes.ofHex?_hex`), and a number is determined by its bytes if
there are enough of them (`Bytes.littleEndian_inj`).

**Text.**  ASCII bytes are text, one character each (`Bytes.isText_of_ascii`).

**Pieces** between separators are found again (`Bytes.splitOn_intercalate`), and together with the
separators they are the whole (`Bytes.intercalate_splitOn`).

**Order.**  The order of byte strings is the lexicographic one (`Bytes.before_iff_lt`), so it is a
strict total order.
-/

namespace TimedCache.Bytes

/-! ### Hexadecimal text -/

theorem hexValue?_hexDigit {n : Nat} (lt : n < 16) : hexValue? (hexDigit n) = some n := by
  have all : ∀ digit : Fin 16, hexValue? (hexDigit digit) = some digit.val := by decide
  exact all ⟨n, lt⟩

/-- A byte is put together from its two digits. -/
theorem toUInt8_digits (b : UInt8) : (16 * (b.toNat / 16) + b.toNat % 16).toUInt8 = b := by
  rw [Nat.div_add_mod]
  exact UInt8.ofNat_toNat

/-- Hexadecimal text is read back. -/
theorem ofHex?_hex (bytes : Bytes) : ofHex? (hex bytes) = some bytes := by
  induction bytes with
  | nil => rfl
  | cons b bytes ih =>
      have lt : b.toNat < 256 := b.toNat_lt
      have high := hexValue?_hexDigit (n := b.toNat / 16) (by omega)
      have low := hexValue?_hexDigit (n := b.toNat % 16) (by omega)
      show ofHex? (hexDigit (b.toNat / 16) :: hexDigit (b.toNat % 16) :: hex bytes) = _
      simp only [ofHex?, high, low, ih, toUInt8_digits]

theorem hex_injective : Function.Injective hex := by
  intro a b same
  have read : ofHex? (hex a) = ofHex? (hex b) := congrArg ofHex? same
  rw [ofHex?_hex, ofHex?_hex] at read
  exact Option.some.inj read

/-! ### Numbers of fixed length -/

theorem length_littleEndian (count n : Nat) : (littleEndian count n).length = count := by
  induction count generalizing n with
  | zero => rfl
  | succ count ih => rw [littleEndian, List.length_cons, ih]

/-- A number is determined by its bytes if there are enough of them. -/
theorem littleEndian_inj {count m n : Nat} (hm : m < 256 ^ count) (hn : n < 256 ^ count)
    (same : littleEndian count m = littleEndian count n) : m = n := by
  induction count generalizing m n with
  | zero => omega
  | succ count ih =>
      obtain ⟨low, high⟩ := List.cons.inj same
      have low : m % 256 = n % 256 := by
        have digit := congrArg UInt8.toNat low
        simpa using digit
      have high : m / 256 = n / 256 := by
        rw [Nat.pow_succ] at hm hn
        exact ih (Nat.div_lt_of_lt_mul (by omega)) (Nat.div_lt_of_lt_mul (by omega)) high
      omega

/-! ### ASCII -/

/-- An ASCII character is encoded by one byte. -/
theorem utf8EncodeChar_ofUInt8 {b : UInt8} (ascii : b < 0x80) :
    String.utf8EncodeChar (Char.ofUInt8 b) = [b] := by
  have small : b.toNat ≤ 127 := Nat.le_of_lt_succ (UInt8.lt_iff_toNat_lt.mp ascii)
  have value : (Char.ofUInt8 b).val.toNat = b.toNat := UInt8.toNat_toUInt32 b
  rw [String.utf8EncodeChar, value, if_pos small]
  exact congrArg (· :: []) UInt8.ofNat_toNat

/-- ASCII bytes are the characters of a text one by one. -/
theorem flatMap_encode_map_ofUInt8 {bytes : Bytes} (ascii : ∀ b ∈ bytes, b < 0x80) :
    (bytes.map Char.ofUInt8).flatMap String.utf8EncodeChar = bytes := by
  induction bytes with
  | nil => rfl
  | cons b bytes ih =>
      rw [List.map_cons, List.flatMap_cons, utf8EncodeChar_ofUInt8 (ascii b List.mem_cons_self),
        ih fun c mem => ascii c (List.mem_cons_of_mem b mem)]
      rfl

/-- ASCII bytes are text. -/
theorem isText_of_ascii {bytes : Bytes} (ascii : ∀ b ∈ bytes, b < 0x80) :
    isText bytes = true := by
  rw [← flatMap_encode_map_ofUInt8 ascii]
  exact isText_flatMap_encode _

/-! ### Pieces -/

/-- The pieces between separators are those of the library. -/
theorem splitOn_eq (separator : UInt8) (bytes : Bytes) :
    splitOn separator bytes = List.splitOn separator bytes := by
  induction bytes with
  | nil => rfl
  | cons b bytes ih =>
      rw [List.splitOn_cons_eq_if_modifyHead, ← ih, splitOn, List.foldr_cons, ← splitOn]
      simp only [beq_iff_eq]
      split
      next => rfl
      next =>
        split
        next none => exact absurd (ih.symm.trans none) (List.splitOn_ne_nil separator bytes)
        next piece others pieces => rw [pieces, List.modifyHead_cons]

/-- Pieces without separators are found again. -/
theorem splitOn_intercalate {separator : UInt8} {pieces : List Bytes} (ne : pieces ≠ [])
    (free : ∀ piece ∈ pieces, separator ∉ piece) :
    splitOn separator ([separator].intercalate pieces) = pieces := by
  rw [splitOn_eq]
  exact List.splitOn_intercalate separator free ne

/-- With separators between them, the pieces are the whole. -/
theorem intercalate_splitOn (separator : UInt8) (bytes : Bytes) :
    [separator].intercalate (splitOn separator bytes) = bytes := by
  rw [splitOn_eq, List.intercalate_splitOn]

/-- A piece consists of bytes of the whole, and none of them is a separator. -/
theorem mem_of_mem_splitOn {separator : UInt8} {bytes piece : Bytes}
    (mem : piece ∈ splitOn separator bytes) : ∀ b ∈ piece, b ∈ bytes ∧ b ≠ separator := by
  induction bytes generalizing piece with
  | nil =>
      rw [List.mem_singleton.mp mem]
      exact List.forall_mem_nil _
  | cons first bytes ih =>
      have later : ∀ {piece}, piece ∈ splitOn separator bytes →
          ∀ b ∈ piece, b ∈ first :: bytes ∧ b ≠ separator := fun mem b inside =>
        (ih mem b inside).imp_left (List.mem_cons_of_mem first)
      rw [splitOn_eq, List.splitOn_cons_eq_if_modifyHead, ← splitOn_eq] at mem
      split at mem
      next =>
        obtain rfl | mem := List.mem_cons.mp mem
        · exact List.forall_mem_nil _
        · exact later mem
      next ne =>
        cases pieces : splitOn separator bytes with
        | nil =>
            rw [pieces] at mem
            cases mem
        | cons front others =>
            rw [pieces, List.modifyHead_cons] at mem
            obtain rfl | mem := List.mem_cons.mp mem
            · exact List.forall_mem_cons.mpr ⟨⟨List.mem_cons_self, fun same => ne (beq_iff_eq.mpr same)⟩,
                later (pieces ▸ List.mem_cons_self)⟩
            · exact later (pieces ▸ List.mem_cons_of_mem front mem)

/-! ### Order -/

/-- Byte strings are ordered lexicographically. -/
theorem before_iff_lt {a b : Bytes} : before a b = true ↔ a < b := by
  fun_induction before a b with
  | case1 => simp
  | case2 => simp
  | case3 => simp
  | case4 a as b bs lt => simp [List.cons_lt_cons_iff, lt]
  | case5 a as b bs nlt gt =>
      have ne : a ≠ b := fun same => UInt8.lt_irrefl b (same ▸ gt)
      simp [List.cons_lt_cons_iff, nlt, ne]
  | case6 a as b bs nlt ngt ih =>
      have same : a = b := UInt8.le_antisymm (UInt8.not_lt.mp ngt) (UInt8.not_lt.mp nlt)
      simp [same, ih]

theorem before_irrefl (a : Bytes) : before a a = false :=
  Bool.eq_false_iff.mpr fun lt => List.lt_irrefl a (before_iff_lt.mp lt)

theorem before_trans {a b c : Bytes} (ab : before a b = true) (bc : before b c = true) :
    before a c = true :=
  before_iff_lt.mpr (List.lt_trans (before_iff_lt.mp ab) (before_iff_lt.mp bc))

/-- Of two different byte strings one comes first. -/
theorem before_of_not_before {a b : Bytes} (ne : a ≠ b) (not : before a b = false) :
    before b a = true := by
  refine before_iff_lt.mpr (Decidable.byContradiction fun nlt => ne ?_)
  have nlt' : ¬a < b := fun lt => Bool.false_ne_true (not.symm.trans (before_iff_lt.mpr lt))
  exact List.le_antisymm nlt nlt'

end TimedCache.Bytes
