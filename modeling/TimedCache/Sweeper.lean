import TimedCache.Store.Basic

/-!
# Sweepers

A local backend reclaims its expired entries **at regular intervals**.  The first pass is due one
interval after the backend was made, each further pass one interval after the pass before it.
Timers fire on whole milliseconds, so a due time is moved up to the next one.

Times on the monotonic clock are nanoseconds.

## Main Definitions

* `Sweeper` — the interval, and when the next pass is due
* `Sweeper.catchUp` — a store after all passes that are due by some time
-/

namespace TimedCache

/-- The first whole millisecond that is not before a moment, in nanoseconds. -/
def nextTick (nanos : Nat) : Nat :=
  (nanos + 999999) / 1000000 * 1000000

/-- When a local backend reclaims its expired entries. -/
structure Sweeper where
  interval : Duration
  due : Nat
  deriving DecidableEq, Repr, Inhabited

namespace Sweeper

/-- The shortest interval between two passes. -/
def minInterval : Duration := .ofMillis 10

/-- The interval unless another one is asked for. -/
def standardInterval : Duration := .ofSecs 60

/-- The sweeper of a backend that is made at `now`. -/
def start (now : Nat) (interval : Duration) : Sweeper :=
  let interval := interval.max minInterval
  ⟨interval, nextTick (now + interval.nanos)⟩

/-- The sweeper behind a pass. -/
def next (sweeper : Sweeper) : Sweeper :=
  { sweeper with due := nextTick (sweeper.due + sweeper.interval.nanos) }

/-- At most `fuel` passes, those that are due by `limit`; `wall` reads the wall clock. -/
def passes (wall : Nat → Nat) (limit : Nat) :
    (fuel : Nat) → Sweeper → Store → Sweeper × Store
  | 0, sweeper, store => (sweeper, store)
  | fuel + 1, sweeper, store =>
    if store.isOpen && decide (sweeper.due ≤ limit) then
      passes wall limit fuel sweeper.next (store.sweep (wall sweeper.due))
    else (sweeper, store)

/-- The store after all passes that are due by `limit`.  Passes are at least ten milliseconds
apart, which bounds their number.  A closed store is not swept any more. -/
def catchUp (wall : Nat → Nat) (limit : Nat) (sweeper : Sweeper) (store : Store) :
    Sweeper × Store :=
  passes wall limit ((limit - sweeper.due) / minInterval.nanos + 1) sweeper store

end Sweeper

end TimedCache
