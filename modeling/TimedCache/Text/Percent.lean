import TimedCache.Bytes

/-!
# Percent coding

In paths and credentials `%` and two hexadecimal digits stand for one byte.  A `%` that is not
followed by two digits stands for itself.

## Main Definitions

* `percentDecode` — the bytes that a coded text stands for
* `percentEncode` — the coded form in which only unreserved characters stay as they are
-/

namespace TimedCache

/-- The bytes that a coded text stands for. -/
def percentDecode : Bytes → Bytes
  | 0x25 :: high :: low :: rest =>
    match hexValue? high, hexValue? low with
    | some h, some l => (16 * h + l).toUInt8 :: percentDecode rest
    | _, _ => 0x25 :: percentDecode (high :: low :: rest)
  | b :: rest => b :: percentDecode rest
  | [] => []

/-- Whether a byte needs no coding anywhere in a path: letters, digits, `-`, `.`, `_` and `~`. -/
def isUnreserved (b : UInt8) : Bool :=
  (0x41 ≤ b && b ≤ 0x5A) || (0x61 ≤ b && b ≤ 0x7A) || isDigitByte b
    || b = 0x2D || b = 0x2E || b = 0x5F || b = 0x7E

/-- The upper-case hexadecimal digit of a number below sixteen. -/
def upperHexDigit (n : Nat) : UInt8 :=
  if n < 10 then (0x30 + n).toUInt8 else (0x37 + n).toUInt8

/-- The coded form of a byte string, in which only unreserved characters stay as they are. -/
def percentEncode (bytes : Bytes) : Bytes :=
  bytes.flatMap fun b =>
    if isUnreserved b then [b]
    else [0x25, upperHexDigit (b.toNat / 16), upperHexDigit (b.toNat % 16)]

end TimedCache
