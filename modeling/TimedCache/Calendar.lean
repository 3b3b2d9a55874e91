import TimedCache.Text.Decimal

/-!
# Calendar text

Instants are milliseconds since the beginning of 1970 in universal time.  Their text is the
**RFC 3339** form with the offset `+00:00`; three digits of fraction are written only if the
milliseconds are not zero.

**Days to dates.**  Years are counted from March, so that the leap day is the last day of a year,
and in cycles of 400 years, all of which have the same number of days.

## Main Definitions

* `Date.ofDays` — the date of a day
* `instantText` — the text of an instant
-/

namespace TimedCache

/-- A date of the Gregorian calendar. -/
structure Date where
  year : Nat
  month : Nat
  day : Nat
  deriving DecidableEq, Repr

/-- The date that is `days` days after the first of January 1970. -/
def Date.ofDays (days : Nat) : Date :=
  let shifted := days + 719468
  let cycle := shifted / 146097
  let inCycle := shifted % 146097
  let yearOfCycle := (inCycle - inCycle / 1460 + inCycle / 36524 - inCycle / 146096) / 365
  let dayOfYear := inCycle - (365 * yearOfCycle + yearOfCycle / 4 - yearOfCycle / 100)
  let fromMarch := (5 * dayOfYear + 2) / 153
  let day := dayOfYear - (153 * fromMarch + 2) / 5 + 1
  let month := if fromMarch < 10 then fromMarch + 3 else fromMarch - 9
  let year := 400 * cycle + yearOfCycle + if month ≤ 2 then 1 else 0
  ⟨year, month, day⟩

/-- A number with at least `width` digits. -/
def paddedNat (width n : Nat) : Bytes :=
  let digits := natText n
  List.replicate (width - digits.length) 0x30 ++ digits

/-- The text of an instant. -/
def instantText (millis : Nat) : Bytes :=
  let seconds := millis / 1000
  let date := Date.ofDays (seconds / 86400)
  let fraction := millis % 1000
  paddedNat 4 date.year ++ utf8 "-" ++ paddedNat 2 date.month ++ utf8 "-" ++ paddedNat 2 date.day
    ++ utf8 "T" ++ paddedNat 2 (seconds / 3600 % 24) ++ utf8 ":" ++ paddedNat 2 (seconds / 60 % 60)
    ++ utf8 ":" ++ paddedNat 2 (seconds % 60)
    ++ (if fraction = 0 then [] else utf8 "." ++ paddedNat 3 fraction) ++ utf8 "+00:00"

end TimedCache
