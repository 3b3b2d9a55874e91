import TimedCache.Json.Basic

/-!
# Lexemes of JSON text

The pieces of a JSON text that hold no other values: **blanks**, **words**, **strings** and
**numbers**.  Each reader takes what is left of the text and gives back what it found together
with the rest, or nothing if the text breaks the grammar there.

**Strings.**  Control characters must be escaped, a surrogate escape must come as a pair, and the
whole must be UTF-8.

**Numbers.**  A number without fraction and exponent is an integer if it fits into 64 bits, signed
or unsigned; minus zero and everything else is a floating-point number.  Its digits are collected
into a 64-bit significand for as long as they fit, and the significand is scaled by one power of
ten.  A number beyond the floating-point range breaks the grammar.

## Main Definitions

* `skipBlanks` — the text behind its blanks
* `cutString`, `unescape` — a string as it is written, and what it stands for
* `readString`, `skipString` — a string behind its opening quotation mark
* `readNumber`, `skipNumber` — a number
* `scaled` — significand and power of ten as a floating-point number
-/

namespace TimedCache.Json

/-- Whether a byte may stand between lexemes. -/
def isBlankByte (b : UInt8) : Bool :=
  b = 0x20 || b = 0x0A || b = 0x0D || b = 0x09

/-- The text behind its blanks. -/
def skipBlanks (s : Bytes) : Bytes :=
  s.dropWhile isBlankByte

/-! ### Strings -/

/-- The number that four hexadecimal digits stand for, and what follows them. -/
def readHexWord : Bytes → Option (Nat × Bytes)
  | a :: b :: c :: d :: rest =>
    match hexValue? a, hexValue? b, hexValue? c, hexValue? d with
    | some a, some b, some c, some d => some (4096 * a + 256 * b + 16 * c + d, rest)
    | _, _, _, _ => none
  | _ => none

/-- The UTF-8 bytes of a code point. -/
def encodePoint (n : Nat) : Bytes :=
  String.utf8EncodeChar (Char.ofNat n)

/-- The second half of a surrogate pair, behind its first half. -/
def readLowSurrogate : Bytes → Option (Nat × Bytes)
  | 0x5C :: 0x75 :: rest =>
    match readHexWord rest with
    | some (low, rest) => if 0xDC00 ≤ low && low ≤ 0xDFFF then some (low, rest) else none
    | none => none
  | _ => none

/-- What a numeric escape stands for, behind its `u`. -/
def readPointEscape (s : Bytes) : Option (Bytes × Bytes) :=
  match readHexWord s with
  | none => none
  | some (unit, rest) =>
    if 0xDC00 ≤ unit && unit ≤ 0xDFFF then none
    else if 0xD800 ≤ unit && unit ≤ 0xDBFF then
      match readLowSurrogate rest with
      | none => none
      | some (low, rest) =>
        some (encodePoint (0x10000 + 0x400 * (unit - 0xD800) + (low - 0xDC00)), rest)
    else some (encodePoint unit, rest)

/-- The byte that an escape of one letter stands for. -/
def letterEscape? (b : UInt8) : Option UInt8 :=
  if b = 0x22 then some 0x22
  else if b = 0x5C then some 0x5C
  else if b = 0x2F then some 0x2F
  else if b = 0x62 then some 0x08
  else if b = 0x66 then some 0x0C
  else if b = 0x6E then some 0x0A
  else if b = 0x72 then some 0x0D
  else if b = 0x74 then some 0x09
  else none

/-- What an escape stands for, behind its backslash. -/
def readEscape : Bytes → Option (Bytes × Bytes)
  | [] => none
  | b :: rest =>
    if b = 0x75 then readPointEscape rest
    else match letterEscape? b with
      | some c => some ([c], rest)
      | none => none

/-- Cuts a string off behind its opening quotation mark; `taken` is what has been passed so far,
last byte first.  What follows a backslash cannot end the string. -/
def cutStringOn : (taken : Bytes) → Bytes → Option (Bytes × Bytes)
  | _, [] => none
  | taken, b :: rest =>
    if b = 0x22 then some (taken.reverse, rest)
    else if b = 0x5C then
      match rest with
      | [] => none
      | c :: rest => cutStringOn (c :: b :: taken) rest
    else if b < 0x20 then none
    else cutStringOn (b :: taken) rest

/-- A string as it is written, escapes included, and what follows its closing quotation mark. -/
def cutString (s : Bytes) : Option (Bytes × Bytes) := cutStringOn [] s

/-- What a written string stands for, behind `taken`, last byte first.  Every round takes a byte,
so `fuel` need not exceed the length. -/
def unescapeOn : (fuel : Nat) → (taken : Bytes) → Bytes → Option Bytes
  | _, taken, [] => some taken.reverse
  | 0, _, _ :: _ => none
  | fuel + 1, taken, b :: rest =>
    if b = 0x5C then
      match readEscape rest with
      | some (bytes, rest) => unescapeOn fuel (bytes.reverse ++ taken) rest
      | none => none
    else unescapeOn fuel (b :: taken) rest

/-- What a written string stands for; it must be UTF-8. -/
def unescape (written : Bytes) : Option Bytes :=
  (unescapeOn written.length [] written).filter Bytes.isText

/-- The content of a string, behind its opening quotation mark. -/
def readString (s : Bytes) : Option (Bytes × Bytes) :=
  match cutString s with
  | some (written, rest) => (unescape written).map fun content => (content, rest)
  | none => none

/-- Whether the escapes of a written string have the right form, whatever they stand for. -/
def hasEscapeForm : (fuel : Nat) → Bytes → Bool
  | _, [] => true
  | 0, _ :: _ => false
  | fuel + 1, b :: rest =>
    if b = 0x5C then
      match rest with
      | [] => false
      | c :: rest =>
        if c = 0x75 then
          match readHexWord rest with
          | some (_, rest) => hasEscapeForm fuel rest
          | none => false
        else (letterEscape? c).isSome && hasEscapeForm fuel rest
    else hasEscapeForm fuel rest

/-- Passes over a string of which only the form matters, behind its opening quotation mark. -/
def skipString (s : Bytes) : Option Bytes :=
  match cutString s with
  | some (written, rest) => if hasEscapeForm written.length written then some rest else none
  | none => none

/-! ### Numbers -/

/-- The digits at the front of a text, and what follows them. -/
def takeDigits (s : Bytes) : Bytes × Bytes :=
  (s.takeWhile isDigitByte, s.dropWhile isDigitByte)

/-- The value of a digit. -/
def digitValue (d : UInt8) : Nat := d.toNat - 0x30

/-- Appends digits to a significand for as long as it stays within 64 bits; also tells how many
digits were left over. -/
def appendDigits : (significand : Nat) → (digits : Bytes) → Nat × Nat
  | significand, [] => (significand, 0)
  | significand, d :: digits =>
    let next := 10 * significand + digitValue d
    if next < word64 then appendDigits next digits else (significand, digits.length + 1)

/-- A power of ten as a floating-point number. -/
def powerOfTen (n : Nat) : Float := Float.ofScientific 1 false n

/-- Scales by a power of ten that may be far below the smallest floating-point number. -/
def scaleDown : (fuel : Nat) → (x : Float) → (places : Nat) → Float
  | 0, x, _ => x
  | fuel + 1, x, places =>
    if places ≤ 308 then x / powerOfTen places
    else if x == 0 then x
    else scaleDown fuel (x / powerOfTen 308) (places - 308)

/-- Significand times power of ten; nothing if that is beyond the range. -/
def scaled (significand : Nat) (exponent : Int) : Option Float :=
  let x := significand.toUInt64.toFloat
  if 0 ≤ exponent then
    if exponent ≤ 308 then
      let y := x * powerOfTen exponent.toNat
      if y.isInf then none else some y
    else if x == 0 then some x else none
  else some (scaleDown 10 x (-exponent).toNat)

/-- The grammar of a number: its parts as digits. -/
structure NumberParts where
  whole : Bytes
  fraction : Bytes
  exponentNegative : Bool
  exponent : Option Bytes
  deriving DecidableEq, Repr

/-- The exponent of a number, if there is one. -/
def readExponent (whole fraction : Bytes) : Bytes → Option (NumberParts × Bytes)
  | [] => some (⟨whole, fraction, false, none⟩, [])
  | e :: rest =>
    if e = 0x65 || e = 0x45 then
      let negative := rest.head? = some 0x2D
      let unsigned := if negative || rest.head? = some 0x2B then rest.drop 1 else rest
      let (digits, rest) := takeDigits unsigned
      if digits.isEmpty then none else some (⟨whole, fraction, negative, some digits⟩, rest)
    else some (⟨whole, fraction, false, none⟩, e :: rest)

/-- The parts of a number without its sign. -/
def readNumberParts (s : Bytes) : Option (NumberParts × Bytes) :=
  let (whole, rest) := takeDigits s
  if whole.isEmpty || (whole.head? = some 0x30 && whole.length ≠ 1) then none
  else if rest.head? = some 0x2E then
    let (fraction, rest) := takeDigits (rest.drop 1)
    if fraction.isEmpty then none else readExponent whole fraction rest
  else readExponent whole [] rest

/-- The value of an integer literal, given its sign and its significand. -/
def integerValue (negative : Bool) (significand : Nat) : Json :=
  if negative then
    if significand = 0 || 9223372036854775808 < significand then .float (-significand.toUInt64.toFloat)
    else .int (-(significand : Int))
  else .int significand

/-- A floating-point value with its sign. -/
def signedFloat (negative : Bool) (x : Float) : Json :=
  .float (if negative then -x else x)

/-- The value of a number, given its sign and its parts. -/
def NumberParts.value? (negative : Bool) (parts : NumberParts) : Option Json :=
  let (front, surplus) := appendDigits 0 parts.whole
  let (significand, ignored) := appendDigits front parts.fraction
  let places : Int := (surplus : Int) - ((parts.fraction.length - ignored : Nat) : Int)
  match parts.exponent with
  | none =>
    if surplus = 0 && parts.fraction.isEmpty then some (integerValue negative significand)
    else (scaled significand places).map (signedFloat negative)
  | some digits =>
    let size := digitsValue digits
    if size < 2147483648 then
      let exponent := if parts.exponentNegative then places - size else places + size
      (scaled significand exponent).map (signedFloat negative)
    else if significand ≠ 0 && !parts.exponentNegative then none
    else some (signedFloat negative 0)

/-- A number and what follows it. -/
def readNumber (s : Bytes) : Option (Json × Bytes) :=
  let negative := s.head? = some 0x2D
  match readNumberParts (if negative then s.drop 1 else s) with
  | some (parts, rest) => (parts.value? negative).map fun value => (value, rest)
  | none => none

/-- Passes over a number of which only the form matters. -/
def skipNumber (s : Bytes) : Option Bytes :=
  (readNumberParts (if s.head? = some 0x2D then s.drop 1 else s)).map Prod.snd

/-- Whether a number starts with this byte. -/
def startsNumber (b : UInt8) : Bool :=
  b = 0x2D || isDigitByte b

end TimedCache.Json
