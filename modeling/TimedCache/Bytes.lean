/-!
# Byte strings

Keys, stored values, header values and documents are all **byte strings**.  Text enters as its
UTF-8 encoding (`utf8`) and is told apart from other bytes by `Bytes.isText`, so that no layer
above this one has to choose between a text type and a byte type.

## Main Definitions

* `Bytes` — a byte string, as a list
* `utf8` — the UTF-8 encoding of a text
* `Bytes.isText`, `Bytes.chars?` — whether bytes encode a text, and which
* `Bytes.lower` — ASCII lower case, the folding used for header names and configuration words
* `Bytes.hex`, `hexValue?` — hexadecimal digits, written lower case and read in either case
-/

namespace TimedCache

/-- A byte string.  Keys, values and documents are handled as bytes throughout. -/
abbrev Bytes := List UInt8

/-- The UTF-8 encoding of a text. -/
def utf8 (text : String) : Bytes :=
  text.toList.flatMap String.utf8EncodeChar

/-! ### Single bytes -/

/-- Whether a byte is an ASCII decimal digit. -/
def isDigitByte (b : UInt8) : Bool :=
  0x30 ≤ b && b ≤ 0x39

/-- ASCII lower case of one byte; bytes outside `A`–`Z` stay as they are. -/
def lowerByte (b : UInt8) : UInt8 :=
  if 0x41 ≤ b && b ≤ 0x5A then b + 0x20 else b

/-- The lower-case hexadecimal digit of a number below sixteen. -/
def hexDigit (n : Nat) : UInt8 :=
  if n < 10 then (0x30 + n).toUInt8 else (0x57 + n).toUInt8

/-- The value of a hexadecimal digit of either case. -/
def hexValue? (b : UInt8) : Option Nat :=
  if isDigitByte b then some (b.toNat - 0x30)
  else if 0x61 ≤ b && b ≤ 0x66 then some (b.toNat - 0x57)
  else if 0x41 ≤ b && b ≤ 0x46 then some (b.toNat - 0x37)
  else none

namespace Bytes

/-! ### Text -/

/-- Whether the bytes are the UTF-8 encoding of some text. -/
def isText (bytes : Bytes) : Bool :=
  bytes.toByteArray.validateUTF8

/-- The characters that the bytes encode, if they are UTF-8. -/
def chars? (bytes : Bytes) : Option (List Char) :=
  bytes.toByteArray.utf8Decode?.map Array.toList

/-- Every encoded text is recognised as text. -/
theorem isText_flatMap_encode (chars : List Char) :
    isText (chars.flatMap String.utf8EncodeChar) = true :=
  ByteArray.validateUTF8_eq_true_iff.mpr ⟨chars, rfl⟩

/-- Encoding a text always gives UTF-8. -/
theorem isText_utf8 (text : String) : isText (utf8 text) = true :=
  isText_flatMap_encode text.toList

/-- ASCII lower case of every byte; all other bytes stay as they are. -/
def lower (bytes : Bytes) : Bytes :=
  bytes.map lowerByte

/-! ### Cutting -/

/-- What follows `front` in the byte string, when it starts with `front`. -/
def strip? : (front : Bytes) → Bytes → Option Bytes
  | [], rest => some rest
  | _ :: _, [] => none
  | a :: front, b :: rest => if a = b then strip? front rest else none

/-- Whether the byte string starts with `front`. -/
def startsWith (bytes front : Bytes) : Bool :=
  (strip? front bytes).isSome

/-- Stripping the front of an append gives back the rest. -/
@[simp] theorem strip?_append (front rest : Bytes) : strip? front (front ++ rest) = some rest := by
  induction front with
  | nil => rfl
  | cons a front ih => simp [strip?, ih]

/-- A successful strip splits the byte string at the front. -/
theorem strip?_eq_some_iff {front bytes rest : Bytes} :
    strip? front bytes = some rest ↔ bytes = front ++ rest := by
  induction front generalizing bytes with
  | nil => simp [strip?, eq_comm]
  | cons a front ih =>
    cases bytes with
    | nil => simp [strip?]
    | cons b bytes =>
      by_cases h : a = b
      · subst h
        simp [strip?, ih]
      · have h' : b ≠ a := fun e => h e.symm
        simp [strip?, h, h']

/-- The pieces between separator bytes; there is always at least one. -/
def splitOn (separator : UInt8) (bytes : Bytes) : List Bytes :=
  bytes.foldr
    (fun b pieces =>
      if b = separator then [] :: pieces
      else match pieces with
        | [] => [[b]]
        | piece :: others => (b :: piece) :: others)
    [[]]

/-! ### Hexadecimal -/

/-- Two lower-case hexadecimal digits per byte. -/
def hex (bytes : Bytes) : Bytes :=
  bytes.flatMap fun b => [hexDigit (b.toNat / 16), hexDigit (b.toNat % 16)]

/-- Reads pairs of hexadecimal digits back into bytes. -/
def ofHex? : Bytes → Option Bytes
  | [] => some []
  | [_] => none
  | high :: low :: rest =>
    match hexValue? high, hexValue? low, ofHex? rest with
    | some h, some l, some tail => some ((16 * h + l).toUInt8 :: tail)
    | _, _, _ => none

/-! ### Numbers and order -/

/-- The last `count` bytes of a number, least significant byte first. -/
def littleEndian : (count n : Nat) → Bytes
  | 0, _ => []
  | count + 1, n => (n % 256).toUInt8 :: littleEndian count (n / 256)

/-- Byte strings are ordered byte by byte, a proper beginning coming first. -/
def before : Bytes → Bytes → Bool
  | [], [] => false
  | [], _ :: _ => true
  | _ :: _, [] => false
  | a :: as, b :: bs => if a < b then true else if b < a then false else before as bs

/-- The byte strings in ascending order. -/
def sorted (all : List Bytes) : List Bytes :=
  all.mergeSort fun a b => !(before b a)

end Bytes

end TimedCache
