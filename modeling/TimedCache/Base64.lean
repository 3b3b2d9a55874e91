import TimedCache.Bytes

/-!
# Base64

The **standard alphabet with padding**: three bytes become four characters, and the last group is
filled up with `=`.  Every byte string has exactly one written form.  The reader therefore refuses
missing padding, characters behind the padding, and bits that are cut off by the padding but not
zero.

## Main Definitions

* `Base64.encode` — the written form of bytes
* `Base64.decode?` — the bytes of a written form
-/

namespace TimedCache.Base64

/-- The character that stands for six bits. -/
def digit (n : Nat) : UInt8 :=
  if n < 26 then (0x41 + n).toUInt8
  else if n < 52 then (0x61 + (n - 26)).toUInt8
  else if n < 62 then (0x30 + (n - 52)).toUInt8
  else if n = 62 then 0x2B
  else 0x2F

/-- The six bits that a character stands for. -/
def value? (c : UInt8) : Option Nat :=
  if 0x41 ≤ c && c ≤ 0x5A then some (c.toNat - 0x41)
  else if 0x61 ≤ c && c ≤ 0x7A then some (c.toNat - 0x61 + 26)
  else if isDigitByte c then some (c.toNat - 0x30 + 52)
  else if c = 0x2B then some 62
  else if c = 0x2F then some 63
  else none

/-- The character that fills up the last group. -/
def pad : UInt8 := 0x3D

/-- The written form, behind `done` in reverse. -/
def encodeOn : (done : Bytes) → Bytes → Bytes
  | done, a :: b :: c :: rest =>
    let n := 65536 * a.toNat + 256 * b.toNat + c.toNat
    encodeOn (digit (n % 64) :: digit (n / 64 % 64) :: digit (n / 4096 % 64) ::
      digit (n / 262144) :: done) rest
  | done, [a, b] =>
    let n := 256 * a.toNat + b.toNat
    (pad :: digit (4 * (n % 16)) :: digit (n / 16 % 64) :: digit (n / 1024) :: done).reverse
  | done, [a] =>
    (pad :: pad :: digit (16 * (a.toNat % 4)) :: digit (a.toNat / 4) :: done).reverse
  | done, [] => done.reverse

/-- The written form of a byte string. -/
def encode (bytes : Bytes) : Bytes := encodeOn [] bytes

/-- The bytes of the last group, whose last character is padding. -/
def lastGroup? (a b c : UInt8) : Option Bytes :=
  match value? a, value? b with
  | some a, some b =>
    if c = pad then
      if b % 16 = 0 then some [(4 * a + b / 16).toUInt8] else none
    else match value? c with
      | some c =>
        if c % 4 = 0 then some [(4 * a + b / 16).toUInt8, (16 * (b % 16) + c / 4).toUInt8]
        else none
      | none => none
  | _, _ => none

/-- Reads a written form; `done` is what has been read, last byte first. -/
def decodeOn : (done : Bytes) → Bytes → Option Bytes
  | done, [] => some done.reverse
  | done, a :: b :: c :: d :: rest =>
    if d = pad then
      if rest.isEmpty then (lastGroup? a b c).map fun last => done.reverse ++ last else none
    else match value? a, value? b, value? c, value? d with
      | some a, some b, some c, some d =>
        decodeOn ((64 * (c % 4) + d).toUInt8 :: (16 * (b % 16) + c / 4).toUInt8 ::
          (4 * a + b / 16).toUInt8 :: done) rest
      | _, _, _, _ => none
  | _, _ => none

/-- The bytes of a written form, if it is one. -/
def decode? (text : Bytes) : Option Bytes := decodeOn [] text

end TimedCache.Base64
