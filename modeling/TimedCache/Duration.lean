import TimedCache.Text.Decimal

/-!
# Durations

Spans of time in whole **nanoseconds**.  Expiry counts only the whole milliseconds of a span, while
the difference between no span and a very short one still matters where a zero stands for
"the default".

## Main Definitions

* `Duration` — a span of time
* `Duration.wholeMillis`, `Duration.wholeSecs` — what is left when the fraction is cut off
* `Duration.text` — a span in its largest fitting unit, such as `5s`, `1.5s` or `200ms`
-/

namespace TimedCache

/-- A span of time, in nanoseconds. -/
structure Duration where
  nanos : Nat
  deriving DecidableEq, Repr, Inhabited

namespace Duration

/-- The empty span. -/
def zero : Duration := ⟨0⟩

/-- A span of whole microseconds. -/
def ofMicros (n : Nat) : Duration := ⟨n * 1000⟩

/-- A span of whole milliseconds. -/
def ofMillis (n : Nat) : Duration := ⟨n * 1000000⟩

/-- A span of whole seconds. -/
def ofSecs (n : Nat) : Duration := ⟨n * 1000000000⟩

/-- Whether the span is empty. -/
def isZero (d : Duration) : Bool := d.nanos = 0

/-- The whole milliseconds of the span. -/
def wholeMillis (d : Duration) : Nat := d.nanos / 1000000

/-- The whole seconds of the span. -/
def wholeSecs (d : Duration) : Nat := d.nanos / 1000000000

/-- The longer of two spans. -/
def max (a b : Duration) : Duration := ⟨Nat.max a.nanos b.nanos⟩

/-- The span, or a default if it is empty. -/
def orDefault (d default : Duration) : Duration := if d.isZero then default else d

@[simp] theorem wholeMillis_ofMillis (n : Nat) : (ofMillis n).wholeMillis = n := by
  simp [ofMillis, wholeMillis]

/-- The fraction digits that `rest` leaves when `unit` is one; trailing zeros are dropped. -/
def fraction : (digits rest unit : Nat) → Bytes
  | 0, _, _ => []
  | digits + 1, rest, unit =>
    if rest = 0 then []
    else (0x30 + rest * 10 / unit).toUInt8 :: fraction digits (rest * 10 % unit) unit

/-- A number of units with its fraction, and the name of the unit. -/
def inUnit (nanos unit : Nat) (name : Bytes) : Bytes :=
  let rest := nanos % unit
  let point : Bytes := if rest = 0 then [] else [0x2E]
  natText (nanos / unit) ++ point ++ fraction 9 rest unit ++ name

/-- The span in the largest unit that it reaches. -/
def text (d : Duration) : Bytes :=
  if 1000000000 ≤ d.nanos then inUnit d.nanos 1000000000 (utf8 "s")
  else if 1000000 ≤ d.nanos then inUnit d.nanos 1000000 (utf8 "ms")
  else if 1000 ≤ d.nanos then inUnit d.nanos 1000 (utf8 "µs")
  else inUnit d.nanos 1 (utf8 "ns")

end Duration

end TimedCache
