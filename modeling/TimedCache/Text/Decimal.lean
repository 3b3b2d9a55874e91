import TimedCache.Bytes

/-!
# Decimal integers

Integers as **decimal text**: the canonical form that counters are stored in, and the reader for
configuration values and stored counters.  The reader takes an optional sign, at least one digit
and nothing else; a value outside the wanted range is refused.

## Main Definitions

* `natText`, `intText` — canonical decimal text
* `readNat?` — a natural number below a bound, with an optional plus sign
* `readInt64?` — a signed 64-bit integer, with an optional sign
-/

namespace TimedCache

/-- The decimal digits of `n`, put in front of `rest`; `fuel` bounds their number. -/
def digitsOnto : (fuel : Nat) → (n : Nat) → (rest : Bytes) → Bytes
  | 0, _, rest => rest
  | fuel + 1, n, rest =>
    let rest := (0x30 + n % 10).toUInt8 :: rest
    if n < 10 then rest else digitsOnto fuel (n / 10) rest

/-- The canonical decimal text of a natural number. -/
def natText (n : Nat) : Bytes :=
  digitsOnto (n + 1) n []

/-- The canonical decimal text of an integer. -/
def intText : Int → Bytes
  | .ofNat n => natText n
  | .negSucc n => 0x2D :: natText (n + 1)

/-- The number that a list of digits stands for. -/
def digitsValue (digits : Bytes) : Nat :=
  digits.foldl (fun value d => 10 * value + (d.toNat - 0x30)) 0

/-- Reads digits only, at least one of them. -/
def readDigits? (digits : Bytes) : Option Nat :=
  if !digits.isEmpty && digits.all isDigitByte then some (digitsValue digits) else none

/-- Reads a natural number below `bound`, with an optional plus sign. -/
def readNat? (bound : Nat) (text : Bytes) : Option Nat :=
  let digits := match text with
    | 0x2B :: rest => rest
    | _ => text
  match readDigits? digits with
  | some n => if n < bound then some n else none
  | none => none

/-- Whether an integer fits into a signed 64-bit word. -/
def fitsInt64 (n : Int) : Bool :=
  -9223372036854775808 ≤ n && n < 9223372036854775808

/-- Reads a signed 64-bit integer, with an optional sign. -/
def readInt64? (text : Bytes) : Option Int :=
  let magnitude? : Option Int := match text with
    | 0x2B :: rest => (readDigits? rest).map Int.ofNat
    | 0x2D :: rest => (readDigits? rest).map fun n => -(Int.ofNat n)
    | _ => (readDigits? text).map Int.ofNat
  match magnitude? with
  | some n => if fitsInt64 n then some n else none
  | none => none

/-- The bound of unsigned 64-bit words. -/
def word64 : Nat := 18446744073709551616

/-- The bound of unsigned 16-bit words. -/
def word16 : Nat := 65536

end TimedCache
