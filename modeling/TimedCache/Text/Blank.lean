import TimedCache.Bytes

/-!
# Blank text

The **white space** of Unicode: the twenty-five characters with the property `White_Space`.
Configuration words and patterns are trimmed of it at both ends.

## Main Definitions

* `isBlank` — whether a character is white space
* `Bytes.trim` — a text without the white space at its ends
-/

namespace TimedCache

/-- Whether a character has the Unicode property `White_Space`. -/
def isBlank (c : Char) : Bool :=
  let n := c.toNat
  (0x09 ≤ n && n ≤ 0x0D) || n = 0x20 || n = 0x85 || n = 0xA0 || n = 0x1680
    || (0x2000 ≤ n && n ≤ 0x200A) || n = 0x2028 || n = 0x2029 || n = 0x202F || n = 0x205F
    || n = 0x3000

/-- Every character that is white space to the core library is blank. -/
theorem isBlank_of_isWhitespace {c : Char} (h : c.isWhitespace = true) : isBlank c = true := by
  simp only [Char.isWhitespace, Bool.or_eq_true, decide_eq_true_eq] at h
  obtain ((rfl | rfl) | rfl) | rfl := h <;> decide

namespace Bytes

/-- The text without the white space at either end.  Bytes that are no text stay as they are. -/
def trim (bytes : Bytes) : Bytes :=
  match chars? bytes with
  | none => bytes
  | some chars =>
    ((chars.dropWhile isBlank).reverse.dropWhile isBlank).reverse.flatMap String.utf8EncodeChar

/-- Whether a text holds nothing but white space. -/
def isBlankText (bytes : Bytes) : Bool :=
  (trim bytes).isEmpty

end Bytes

end TimedCache
