import TimedCache.Proofs.Bytes
import TimedCache.Text.Blank

/-!
# Trimming ASCII text

ASCII text is trimmed byte by byte: what is left is the text without the blank bytes at its ends
(`Bytes.trim_of_ascii`).  So trimming finds what stands between blanks, as long as it has no blanks itself
(`Bytes.trim_surrounded`), and what it takes off are blanks (`Bytes.exists_surroundings`).
-/

namespace TimedCache

/-- Whether a byte is a blank character. -/
def isBlankByte (b : UInt8) : Bool :=
  isBlank (Char.ofUInt8 b)

namespace Bytes

theorem chars?_of_ascii {bytes : Bytes} (ascii : ∀ b ∈ bytes, b < 0x80) :
    chars? bytes = some (bytes.map Char.ofUInt8) := by
  have encoded : bytes.toByteArray = (bytes.map Char.ofUInt8).utf8Encode := by
    rw [List.utf8Encode, flatMap_encode_map_ofUInt8 ascii]
  rw [chars?, encoded, List.utf8Decode?_utf8Encode]
  rfl

/-- **ASCII text is trimmed byte by byte.** -/
theorem trim_of_ascii {bytes : Bytes} (ascii : ∀ b ∈ bytes, b < 0x80) :
    bytes.trim = (bytes.dropWhile isBlankByte).rdropWhile isBlankByte := by
  have kept : ∀ b ∈ (bytes.dropWhile isBlankByte).rdropWhile isBlankByte, b < 0x80 := fun b mem =>
    ascii b ((List.dropWhile_suffix _).subset ((List.rdropWhile_prefix _ _).subset mem))
  rw [trim, chars?_of_ascii ascii]
  dsimp only
  rw [List.dropWhile_map, ← List.map_reverse, List.dropWhile_map, ← List.map_reverse]
  exact flatMap_encode_map_ofUInt8 kept

/-- What stands between blanks is found, if it has none itself. -/
theorem trim_surrounded {left core right : Bytes} (ascii : ∀ b ∈ left ++ core ++ right, b < 0x80)
    (blanks : ∀ b ∈ left ++ right, isBlankByte b = true) (solid : ∀ b ∈ core, isBlankByte b = false) :
    (left ++ core ++ right).trim = core := by
  obtain ⟨before, behind⟩ := List.forall_mem_append.mp blanks
  have behind : ∀ b ∈ right.reverse, isBlankByte b = true := fun b mem =>
    behind b (List.mem_reverse.mp mem)
  rw [trim_of_ascii ascii, List.append_assoc, List.dropWhile_append_of_pos before]
  -- If there is no core, the blanks behind it are the front, and go first as well.
  cases core with
  | nil =>
      rw [List.nil_append, List.dropWhile_eq_nil_iff.mpr fun b mem =>
        behind b (List.mem_reverse.mpr mem)]
      rfl
  | cons b core =>
      have first : ¬isBlankByte b = true := Bool.eq_false_iff.mp (solid b List.mem_cons_self)
      have last : (b :: core).rdropWhile isBlankByte = b :: core :=
        List.rdropWhile_eq_self_iff.mpr fun ne =>
          Bool.eq_false_iff.mp (solid _ (List.getLast_mem ne))
      rw [List.cons_append, List.dropWhile_cons_of_neg first, ← List.cons_append, List.rdropWhile,
        List.reverse_append, List.dropWhile_append_of_pos behind]
      exact last

/-- What is taken off are blanks. -/
theorem exists_surroundings {bytes : Bytes} (ascii : ∀ b ∈ bytes, b < 0x80) :
    ∃ left right, bytes = left ++ bytes.trim ++ right ∧
      ∀ b ∈ left ++ right, isBlankByte b = true := by
  refine ⟨bytes.takeWhile isBlankByte, (bytes.dropWhile isBlankByte).rtakeWhile isBlankByte, ?_,
    List.forall_mem_append.mpr
      ⟨fun b mem => List.mem_takeWhile_imp mem, fun b mem => List.mem_rtakeWhile_imp mem⟩⟩
  rw [trim_of_ascii ascii, List.append_assoc, List.rdropWhile_append_rtakeWhile,
    List.takeWhile_append_dropWhile]

end Bytes

end TimedCache
