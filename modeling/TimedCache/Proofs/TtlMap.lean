import TimedCache.Entry
import TimedCache.Glob
import TimedCache.Proofs.Run

/-!
# The TTL map

The plainest store with the same operations: a finite map from logical keys to **cells**.  A cell is
a value with an optional expiry, and it is *present* while the clock is below its expiry.  Nothing
is ever reclaimed: a cell that is not present any more is simply not seen, until something is
written over it.

The TTL map keeps no ledger, and it counts only what is present.

## Main Definitions

* `Cell`, `Table.present?` — values with an expiry, and what is seen of them
* `TtlMap` — the TTL map
* `TtlMap.perform` — the answer to an operation, and the map behind it
-/

namespace TimedCache

/-! ### Cells -/

/-- A value with an optional expiry. -/
structure Cell where
  value : Bytes
  expiresAt : Option Nat
  deriving DecidableEq, Repr

/-- Whether the clock is below the expiry. -/
def Cell.isPresent (cell : Cell) (now : Nat) : Bool :=
  match cell.expiresAt with
  | some expires => now < expires
  | none => true

/-- How long the cell has left; none if it never expires. -/
def Cell.remaining (cell : Cell) (now : Nat) : Option Duration :=
  cell.expiresAt.map fun expires => .ofMillis (expires - now)

/-- What is seen of a key. -/
def Table.present? (cells : Table Cell) (now : Nat) (key : Bytes) : Option Cell :=
  (cells.find? key).filter fun cell => cell.isPresent now

/-- How many selected keys are present. -/
def Table.presentCount (cells : Table Cell) (now : Nat) (selected : Bytes → Bool) : Nat :=
  (cells.filter fun key cell => cell.isPresent now && selected key).size

/-- What is present later is present before. -/
theorem Cell.isPresent_of_later {cell : Cell} {now later : Nat} (le : now ≤ later)
    (present : cell.isPresent later = true) : cell.isPresent now = true := by
  unfold isPresent at *
  split at present
  · simp only [decide_eq_true_eq] at *
    omega
  · rfl

namespace Table

theorem present?_insert (key other : Bytes) (cell : Cell) (cells : Table Cell) (now : Nat) :
    (cells.insert key cell).present? now other =
      if other = key then (some cell).filter fun cell => cell.isPresent now
      else cells.present? now other := by
  rw [present?, find?_insert]
  split <;> rfl

theorem present?_erase (key other : Bytes) (cells : Table Cell) (now : Nat) :
    (cells.erase key).present? now other =
      if other = key then none else cells.present? now other := by
  rw [present?, find?_erase]
  split <;> rfl

theorem present?_filter_key (keep : Bytes → Bool) (key : Bytes) (cells : Table Cell) (now : Nat) :
    (cells.filter fun key _ => keep key).present? now key =
      if keep key then cells.present? now key else none := by
  rw [present?, find?_filter, present?]
  cases cells.find? key <;> cases keep key <;> rfl

/-- What is present and chosen by its key. -/
theorem isSome_filter_present (cells : Table Cell) (now : Nat) (key : Bytes) (chosen : Bool) :
    ((cells.find? key).filter fun cell => cell.isPresent now && chosen).isSome =
      ((cells.present? now key).isSome && chosen) := by
  rw [present?]
  cases chosen with
  | false => simp
  | true => simp

/-- What is seen later was seen before and has not expired since. -/
theorem present?_later {now later : Nat} (le : now ≤ later) (cells : Table Cell) (key : Bytes) :
    cells.present? later key =
      (cells.present? now key).filter fun cell => cell.isPresent later := by
  rw [present?, present?, Option.filter_filter]
  congr 1
  funext cell
  rw [Bool.eq_iff_iff, Bool.and_eq_true]
  exact ⟨fun present => ⟨Cell.isPresent_of_later le present, present⟩, And.right⟩

end Table

/-! ### The map -/

/-- A finite map from logical keys to cells. -/
structure TtlMap where
  options : Options
  cells : Table Cell
  isOpen : Bool

namespace TtlMap

/-- A map without cells. -/
def fresh (options : Options) : TtlMap := ⟨options, .empty, true⟩

/-- The cell for a value that is written now. -/
def newCell (map : TtlMap) (now : Nat) (value : Bytes) (ttl : Duration) : Cell :=
  ⟨value, (map.options.lifetime ttl).map (Entry.expiry now)⟩

/-- What is seen of a key. -/
def see (map : TtlMap) (now : Nat) (key : Bytes) : Option Cell :=
  map.cells.present? now key

/-- Puts a cell under a key. -/
def put (map : TtlMap) (key : Bytes) (cell : Cell) : TtlMap :=
  { map with cells := map.cells.insert key cell }

/-- Puts cells under several keys, all with one lifetime. -/
def putMany (map : TtlMap) (now : Nat) (ttl : Duration) (pairs : List (Bytes × Bytes)) : TtlMap :=
  pairs.foldl (fun map pair => map.put pair.1 (map.newCell now pair.2 ttl)) map

/-- Adds to a counter, which keeps its expiry; a key that is not seen counts from zero. -/
def add (map : TtlMap) (now : Nat) (key : Bytes) (delta : Int) : Except CacheError Int × TtlMap :=
  let cell := (map.see now key).getD ⟨natText 0, none⟩
  match readInt64? cell.value with
  | none => (.error (.invalidRequest (utf8 "value at '" ++ key ++ utf8 "' is not an integer")), map)
  | some current =>
    if fitsInt64 (current + delta) then
      (.ok (current + delta), map.put key { cell with value := intText (current + delta) })
    else
      (.error (.invalidRequest (utf8 "increment of '" ++ key ++ utf8 "' would overflow")), map)

/-- The answer to an operation that may begin, and the map behind it. -/
def carryOut (map : TtlMap) (now : Nat) : (op : Operation) → op.Answer × TtlMap
  | .get key =>
    match map.see now key with
    | some cell => (.ok cell.value, map)
    | none => (.error (.notFound key), map)
  | .set key value ttl => (.ok (), map.put key (map.newCell now value ttl))
  | .delete key => (.ok (), { map with cells := map.cells.erase key })
  | .has key => (.ok (map.see now key).isSome, map)
  | .flush => (.ok (), { map with cells := .empty })
  | .invalidate pattern =>
    (.ok (map.cells.presentCount now (Glob.accepts pattern)),
      { map with cells := map.cells.filter fun key _ => !Glob.accepts pattern key })
  | .close => (.ok (), { map with isOpen := false })
  | .stats =>
    (.ok ⟨.inProcess (map.cells.presentCount now fun _ => true) map.options.maxSize
      map.options.namespaceText, .zero⟩, map)
  | .increment key delta => map.add now key delta
  | .decrement key delta => map.add now key (-delta)
  | .setIfAbsent key value ttl =>
    if (map.see now key).isSome then (.ok false, map)
    else (.ok true, map.put key (map.newCell now value ttl))
  | .getMany keys =>
    (.ok (.ofList (keys.filterMap fun key => (map.see now key).map fun cell => (key, cell.value))),
      map)
  | .setMany entries ttl => (.ok (), map.putMany now ttl entries.pairs)
  | .remaining key =>
    match map.see now key with
    | some cell => (.ok (cell.remaining now), map)
    | none => (.error (.notFound key), map)

theorem carryOut_get (map : TtlMap) (now : Nat) (key : Bytes) :
    map.carryOut now (.get key) =
      (((map.see now key).map Cell.value).elim (.error (.notFound key)) .ok, map) := by
  rw [carryOut]
  cases map.see now key <;> rfl

theorem carryOut_remaining (map : TtlMap) (now : Nat) (key : Bytes) :
    map.carryOut now (.remaining key) =
      ((map.see now key).elim (.error (.notFound key)) fun cell => .ok (cell.remaining now),
        map) := by
  rw [carryOut]
  cases map.see now key <;> rfl

/-- The answer to an operation under a context of the given standing, and the map behind it. -/
def perform (map : TtlMap) (now : Nat) (standing : Standing) (op : Operation) :
    op.Answer × TtlMap :=
  if op.isData then
    if map.isOpen then
      match standing.failure? with
      | some failure => (.error failure, map)
      | none => map.carryOut now op
    else (.error .closed, map)
  else map.carryOut now op

/-- The TTL map as a machine.  Sweeping it does nothing. -/
def machine : Machine TtlMap := ⟨perform, fun map _ => map⟩

end TtlMap

end TimedCache
