import TimedCache.Entry
import TimedCache.Table

/-!
# Reclaiming expired entries

Expired entries are reclaimed **in two phases**: first the keys of expired entries are listed, then
each listed key is removed if its entry is expired *at that moment*.  Between the phases other
clients may write, so the second test is what protects a key that has been written anew.

A read that meets an expired entry reclaims it by the same second phase.

## Main Definitions

* `expiredKeys` — the first phase
* `removeIfExpired` — the second phase, for one key
* `sweepEntries` — both phases, when nothing comes between them
-/

namespace TimedCache

/-- The keys whose entries are expired at `now`. -/
def expiredKeys (entries : Table Entry) (now : Nat) : List Bytes :=
  (entries.filter fun _ entry => entry.isExpired now).keys

/-- Removes the entry of a key if it is expired at `now`; also tells whether it did. -/
def removeIfExpired (entries : Table Entry) (now : Nat) (full : Bytes) : Bool × Table Entry :=
  match entries.find? full with
  | some entry => if entry.isExpired now then (true, entries.erase full) else (false, entries)
  | none => (false, entries)

/-- Removes those of the listed entries that are expired at `now`, and counts them. -/
def reclaim (now : Nat) : (keys : List Bytes) → Table Entry → Nat × Table Entry
  | [], entries => (0, entries)
  | key :: keys, entries =>
    let (removed, entries) := removeIfExpired entries now key
    let (count, entries) := reclaim now keys entries
    ((if removed then 1 else 0) + count, entries)

/-- Removes all entries that are expired at `now`, and counts them. -/
def sweepEntries (now : Nat) (entries : Table Entry) : Nat × Table Entry :=
  reclaim now (expiredKeys entries now) entries

end TimedCache
