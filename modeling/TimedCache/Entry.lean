import TimedCache.Duration

/-!
# Entries

An entry is a value with the time of its creation and, unless it lives for ever, the time at which
it **expires**.  Times are milliseconds of the wall clock and stay within 64 bits: an expiry that
would lie beyond is moved to the last representable time.

## Main Definitions

* `Entry.write` — a new entry
* `Entry.isExpired` — an entry is expired from its expiry on
* `Entry.remaining` — how long an entry has left
-/

namespace TimedCache

/-- A stored value. -/
structure Entry where
  value : Bytes
  createdAt : Nat
  /-- The first moment at which the entry is gone; none if it lives for ever. -/
  expiresAt : Option Nat
  deriving DecidableEq, Repr, Inhabited

namespace Entry

/-- The expiry of something written at `now` with the given lifetime, of which only the whole
milliseconds count. -/
def expiry (now : Nat) (lifetime : Duration) : Nat :=
  Nat.min (now + lifetime.wholeMillis % word64) (word64 - 1)

/-- A new entry; without a lifetime it never expires. -/
def write (now : Nat) (value : Bytes) (lifetime : Option Duration) : Entry :=
  ⟨value, now, lifetime.map (expiry now)⟩

/-- Whether the entry is gone at `now`. -/
def isExpired (entry : Entry) (now : Nat) : Bool :=
  match entry.expiresAt with
  | some expires => expires ≤ now
  | none => false

/-- How many milliseconds the entry has left; none if it lives for ever. -/
def remaining (entry : Entry) (now : Nat) : Option Nat :=
  entry.expiresAt.map fun expires => expires - now

/-- An entry that never expires is never expired. -/
@[simp] theorem isExpired_write_none (written now : Nat) (value : Bytes) :
    (write written value none).isExpired now = false := rfl

/-- Once expired, an entry stays expired. -/
theorem isExpired_mono {entry : Entry} {now later : Nat} (le : now ≤ later)
    (expired : entry.isExpired now = true) : entry.isExpired later = true := by
  unfold isExpired at *
  split at expired
  · simp only [decide_eq_true_eq] at *
    omega
  · cases expired

end Entry

end TimedCache
