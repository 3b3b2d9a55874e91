import TimedCache.Context
import TimedCache.Glob
import TimedCache.Operation
import TimedCache.Store.Expiry

/-!
# The store of a local backend

A local backend keeps its entries in the process.  A **store** is such a backend at one moment: its
options, its entries by full key, its ledger, and whether it is open.

**Expiry.**  An expired entry stays in the table until something reclaims it: a read that meets it,
a write over it, or a sweep.  No answer shows the difference, except for the number of entries.

**Failures.**  A closed store fails before anything else; then the standing of the caller's context
is examined.  Neither failure changes the store.

## Main Definitions

* `Store` — a local backend at one moment
* `Store.perform` — the answer to an operation, and the store behind it
* `Store.sweep` — one pass over the expired entries
-/

namespace TimedCache

/-- A local backend at one moment.  Entries are filed by full key. -/
structure Store where
  options : Options
  entries : Table Entry
  ledger : Ledger
  isOpen : Bool
  deriving Inhabited

namespace Store

/-- A store without entries. -/
def fresh (options : Options) : Store :=
  ⟨options, .empty, .zero, true⟩

/-- Why an operation cannot even begin. -/
def refusal? (store : Store) (standing : Standing) : Option CacheError :=
  if store.isOpen then standing.failure? else some .closed

/-- The number of entries, expired ones included. -/
def size (store : Store) : Nat := store.entries.size

/-- The logical keys of all entries, expired ones included. -/
def logicalKeys (store : Store) : List Bytes :=
  store.entries.keys.filterMap store.options.logicalKey?

/-! ### Reading -/

/-- The live value of a full key.  An expired entry is reclaimed on the way. -/
def readLive (store : Store) (now : Nat) (full : Bytes) : Option Bytes × Store :=
  match store.entries.find? full with
  | none => (none, store)
  | some entry =>
    if entry.isExpired now then
      let (removed, entries) := removeIfExpired store.entries now full
      let ledger := if removed then store.ledger.expire 1 else store.ledger
      (none, { store with entries := entries, ledger := ledger })
    else (some entry.value, store)

/-- A counted read of a logical key. -/
def read (store : Store) (now : Nat) (key : Bytes) : Option Bytes × Store :=
  match store.readLive now (store.options.fullKey key) with
  | (some value, store) => (some value, { store with ledger := store.ledger.hit })
  | (none, store) => (none, { store with ledger := store.ledger.miss })

/-- Counted reads of several keys, one after another. -/
def readMany (now : Nat) : (keys : List Bytes) → Table Bytes → Store → Table Bytes × Store
  | [], found, store => (found, store)
  | key :: keys, found, store =>
    match store.read now key with
    | (some value, store) => readMany now keys (found.insert key value) store
    | (none, store) => readMany now keys found store

/-! ### Writing -/

/-- The entry for a value that is written now. -/
def newEntry (store : Store) (now : Nat) (value : Bytes) (ttl : Duration) : Entry :=
  .write now value (store.options.lifetime ttl)

/-- Writes a value under a logical key. -/
def write (store : Store) (now : Nat) (key value : Bytes) (ttl : Duration) : Store :=
  { store with
    entries := store.entries.insert (store.options.fullKey key) (store.newEntry now value ttl)
    ledger := store.ledger.set }

/-- Writes several values with one lifetime. -/
def writeMany (now : Nat) (ttl : Duration) (pairs : List (Bytes × Bytes)) (store : Store) : Store :=
  pairs.foldl (fun store pair => store.write now pair.1 pair.2 ttl) store

/-- The live entry of a logical key. -/
def live? (store : Store) (now : Nat) (key : Bytes) : Option Entry :=
  (store.entries.find? (store.options.fullKey key)).filter fun entry => !entry.isExpired now

/-- Writes a value unless the key has a live entry; also tells whether it did. -/
def writeIfAbsent (store : Store) (now : Nat) (key value : Bytes) (ttl : Duration) :
    Bool × Store :=
  if (store.live? now key).isSome then (false, store) else (true, store.write now key value ttl)

/-- The counter that a key starts from: zero, and without an expiry. -/
def freshCounter (now : Nat) : Entry :=
  .write now (natText 0) none

/-- Adds to the counter of a logical key, which keeps its expiry. -/
def add (store : Store) (now : Nat) (key : Bytes) (delta : Int) : Except CacheError Int × Store :=
  let entry := (store.live? now key).getD (freshCounter now)
  match readInt64? entry.value with
  | none => (.error (.invalidRequest (utf8 "value at '" ++ key ++ utf8 "' is not an integer")), store)
  | some current =>
    let next := current + delta
    if fitsInt64 next then
      let entry := { entry with value := intText next }
      (.ok next,
        { store with entries := store.entries.insert (store.options.fullKey key) entry })
    else
      (.error (.invalidRequest (utf8 "increment of '" ++ key ++ utf8 "' would overflow")), store)

/-! ### Removing -/

/-- Removes the entry of a logical key, expired or not. -/
def remove (store : Store) (key : Bytes) : Store :=
  let full := store.options.fullKey key
  if store.entries.contains full then
    { store with entries := store.entries.erase full, ledger := store.ledger.delete 1 }
  else store

/-- Whether a full key lies in the namespace and its logical key is selected. -/
def selects (store : Store) (selected : Bytes → Bool) (full : Bytes) : Bool :=
  match store.options.logicalKey? full with
  | some key => selected key
  | none => false

/-- Removes all entries whose logical keys are selected, and counts them. -/
def removeAll (store : Store) (selected : Bytes → Bool) : Nat × Store :=
  let doomed := (store.entries.filter fun full _ => store.selects selected full).size
  (doomed,
    { store with
      entries := store.entries.filter fun full _ => !store.selects selected full
      ledger := store.ledger.delete doomed })

/-! ### Operations -/

/-- What the store tells about itself. -/
def report (store : Store) : Report :=
  ⟨.inProcess store.size store.options.maxSize store.options.namespaceText,
    store.ledger.published⟩

/-- The store after closing: empty, and closed for good. -/
def shut (store : Store) : Store :=
  if store.isOpen then { store with entries := .empty, isOpen := false } else store

/-- The answer to an operation that may begin, and the store behind it.  A decrement is an increment by
the negated delta, negated here as an integer.  No 64-bit word holds the negation of the least one, so for
that delta, and for no other, the arithmetic of words differs. -/
def carryOut (store : Store) (now : Nat) : (op : Operation) → op.Answer × Store
  | .get key =>
    match store.read now key with
    | (some value, store) => (.ok value, store)
    | (none, store) => (.error (.notFound key), store)
  | .set key value ttl => (.ok (), store.write now key value ttl)
  | .delete key => (.ok (), store.remove key)
  | .has key =>
    let (value, store) := store.readLive now (store.options.fullKey key)
    (.ok value.isSome, store)
  | .flush => (.ok (), (store.removeAll fun _ => true).2)
  | .invalidate pattern =>
    let (count, store) := store.removeAll (Glob.accepts pattern)
    (.ok count, store)
  | .close => (.ok (), store.shut)
  | .stats => (.ok store.report, store)
  | .increment key delta => store.add now key delta
  | .decrement key delta => store.add now key (-delta)
  | .setIfAbsent key value ttl =>
    let (written, store) := store.writeIfAbsent now key value ttl
    (.ok written, store)
  | .getMany keys =>
    let (found, store) := readMany now keys .empty store
    (.ok found, store)
  | .setMany entries ttl => (.ok (), writeMany now ttl entries.pairs store)
  | .remaining key =>
    match store.live? now key with
    | some entry => (.ok ((entry.remaining now).map Duration.ofMillis), store)
    | none => (.error (.notFound key), store)

/-- The answer to an operation at time `now` under a context of the given standing, and the store
behind it.  Closing is always possible. -/
def perform (store : Store) (now : Nat) (standing : Standing) (op : Operation) :
    op.Answer × Store :=
  if op.isData then
    match store.refusal? standing with
    | some failure => (.error failure, store)
    | none => store.carryOut now op
  else store.carryOut now op

/-- One pass of the sweeper: reclaims all expired entries and counts them. -/
def sweep (store : Store) (now : Nat) : Store :=
  let (removed, entries) := sweepEntries now store.entries
  { store with entries := entries, ledger := store.ledger.expire removed }

end Store

end TimedCache
