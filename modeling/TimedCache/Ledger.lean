import TimedCache.Text.Decimal

/-!
# Ledgers

A ledger **counts** what happens to a store: reads that found something and reads that did not,
writes, removals on demand, and removals because of expiry.  The counts are exact; published
figures are kept within 64 bits.

## Main Definitions

* `Ledger` — the five counts
* `Ledger.hitRate` — the share of reads that found something
-/

namespace TimedCache

/-- The counts of what happened to a store. -/
@[ext]
structure Ledger where
  hits : Nat
  misses : Nat
  sets : Nat
  deletes : Nat
  expired : Nat
  deriving DecidableEq, Repr, Inhabited

namespace Ledger

/-- Nothing has happened. -/
def zero : Ledger := ⟨0, 0, 0, 0, 0⟩

/-- A read found a value. -/
def hit (ledger : Ledger) : Ledger := { ledger with hits := ledger.hits + 1 }

/-- A read found nothing. -/
def miss (ledger : Ledger) : Ledger := { ledger with misses := ledger.misses + 1 }

/-- An entry was written. -/
def set (ledger : Ledger) : Ledger := { ledger with sets := ledger.sets + 1 }

/-- A number of entries were written. -/
def setMany (n : Nat) (ledger : Ledger) : Ledger := { ledger with sets := ledger.sets + n }

/-- A number of entries were removed on demand. -/
def delete (n : Nat) (ledger : Ledger) : Ledger := { ledger with deletes := ledger.deletes + n }

/-- A number of entries were removed because they had expired. -/
def expire (n : Nat) (ledger : Ledger) : Ledger := { ledger with expired := ledger.expired + n }

/-- The counts within 64 bits. -/
def published (ledger : Ledger) : Ledger :=
  ⟨ledger.hits % word64, ledger.misses % word64, ledger.sets % word64, ledger.deletes % word64,
    ledger.expired % word64⟩

/-- A count as a floating-point number. -/
def toReal (n : Nat) : Float := n.toUInt64.toFloat

/-- The share of reads that found something; zero before the first read. -/
def hitRate (ledger : Ledger) : Float :=
  let total := (ledger.hits + ledger.misses) % word64
  if total = 0 then 0 else toReal ledger.hits / toReal total

end Ledger

end TimedCache
