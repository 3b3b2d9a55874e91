import Mathlib
import TimedCache.Proofs.Run
import TimedCache.Proofs.Store.Removal
import TimedCache.Proofs.Table

/-!
# The ledger is exact

The ledger of a store says how often keys were read with and without success, how many entries
were written, and how many entries left the table on demand and by expiry.  Here each of these
counts is defined anew from what can be **seen from outside** of each event: the operation, its
answer, and the tables before and behind it (`Stage.tally`).  A ledger is the sum of these counts
over all events of a run (`Store.published_eq_sum_tally`).

**Conservation.**  Every entry that was ever put under a key without entry is still there or was
counted once when it left: created entries are present, deleted or expired ones (`Store.Books`).
Overwriting an entry in place, expired or not, is none of these.

**Steps.**  Reads and sweeps only reclaim (`Store.Reclaims`), removals only delete, and writes only
add.  Each event keeps the books (`Store.happen_books`), and so does a run.
-/

namespace TimedCache

/-! ### Sums of ledgers -/

namespace Ledger

instance : Zero Ledger := ⟨zero⟩

instance : Add Ledger where
  add a b :=
    ⟨a.hits + b.hits, a.misses + b.misses, a.sets + b.sets, a.deletes + b.deletes,
      a.expired + b.expired⟩

@[simp] theorem hits_add (a b : Ledger) : (a + b).hits = a.hits + b.hits := rfl
@[simp] theorem misses_add (a b : Ledger) : (a + b).misses = a.misses + b.misses := rfl
@[simp] theorem sets_add (a b : Ledger) : (a + b).sets = a.sets + b.sets := rfl
@[simp] theorem deletes_add (a b : Ledger) : (a + b).deletes = a.deletes + b.deletes := rfl
@[simp] theorem expired_add (a b : Ledger) : (a + b).expired = a.expired + b.expired := rfl

theorem add_assoc (a b c : Ledger) : a + b + c = a + (b + c) := by
  ext <;> simp [Nat.add_assoc]

theorem add_zero (a : Ledger) : a + 0 = a := rfl

theorem zero_add (a : Ledger) : 0 + a = a := by
  ext <;> exact Nat.zero_add _

end Ledger

/-! ### What an event does, seen from outside -/

namespace Operation

/-- The keys that an operation has read, one for each read.  What is refused reads nothing. -/
def reads : (op : Operation) → op.Answer → List Bytes
  | .get key, .ok _ => [key]
  | .get key, .error (.notFound _) => [key]
  | .getMany keys, .ok _ => keys
  | _, _ => []

/-- Whether an answer gives a value to a key that was read. -/
def gives (key : Bytes) : (op : Operation) → op.Answer → Bool
  | .get _, .ok _ => true
  | .getMany _, .ok found => found.contains key
  | _, _ => false

/-- The keys under which an operation has written a new entry. -/
def writes : (op : Operation) → op.Answer → List Bytes
  | .set key _ _, .ok _ => [key]
  | .setMany entries _, .ok _ => entries.keys
  | .setIfAbsent key _ _, .ok true => [key]
  | _, _ => []

/-- The keys whose counters an operation has changed. -/
def counts : (op : Operation) → op.Answer → List Bytes
  | .increment key _, .ok _ => [key]
  | .decrement key _, .ok _ => [key]
  | _, _ => []

/-- Whether an operation removes entries on demand. -/
def removes : Operation → Bool
  | .delete _ | .flush | .invalidate _ => true
  | _ => false

/-- Whether an operation may meet expired entries and reclaim them. -/
def reclaims : Operation → Bool
  | .get _ | .has _ | .getMany _ => true
  | _ => false

/-- What a call counts for that met the store `before` and left the store `after`. -/
def tally (op : Operation) (answer : op.Answer) (now : Nat) (before after : Store) : Ledger where
  hits := (op.reads answer).countP fun key => op.gives key answer
  misses := (op.reads answer).countP fun key => (before.live? now key).isNone
  sets := (op.writes answer).length
  deletes := if op.removes then (before.entries.gone after.entries).size else 0
  expired := if op.reclaims then (before.entries.gone after.entries).size else 0

/-- How many entries a call has put under keys that had none. -/
def created (op : Operation) (answer : op.Answer) (before : Store) : Nat :=
  (op.writes answer ++ op.counts answer).countP fun key =>
    !before.entries.contains (before.options.fullKey key)

/-- How many keys a call has read and written. -/
def touched (op : Operation) (answer : op.Answer) : Nat :=
  (op.reads answer).length + (op.writes answer).length + (op.counts answer).length

end Operation

namespace Stage

/-- The answer of a store to an operation at a stage. -/
def answer (stage : Stage Store) (standing : Standing) (op : Operation) : op.Answer :=
  (stage.before.perform stage.now standing op).1

/-- What an event counts for. -/
def tally (stage : Stage Store) : Ledger :=
  match stage.event with
  | .call standing op => op.tally (stage.answer standing op) stage.now stage.before stage.after
  | .advance _ => 0
  | .sweep => { Ledger.zero with expired := (stage.before.entries.gone stage.after.entries).size }

/-- How many entries an event has put under keys that had none. -/
def created (stage : Stage Store) : Nat :=
  match stage.event with
  | .call standing op => op.created (stage.answer standing op) stage.before
  | _ => 0

/-- How many keys an event has read and written. -/
def touched (stage : Stage Store) : Nat :=
  match stage.event with
  | .call standing op => op.touched (stage.answer standing op)
  | _ => 0

end Stage

namespace Store

/-! ### Reclaiming -/

/-- Reads with the given numbers of hits and misses lead from one store to another, and all that they
take away they count as expired. -/
structure Reclaims (before : Store) (hits misses : Nat) (after : Store) : Prop where
  ledger : after.ledger =
    before.ledger + ⟨hits, misses, 0, 0, (before.entries.gone after.entries).size⟩
  sub : ∀ full, after.entries.contains full = true → before.entries.contains full = true

variable {before store after : Store}

theorem Reclaims.refl (store : Store) : Reclaims store 0 0 store := by
  refine ⟨?_, fun _ there => there⟩
  rw [Table.size_gone_self]
  rfl

theorem Reclaims.trans {hits misses hits' misses' : Nat} (first : Reclaims before hits misses store)
    (second : Reclaims store hits' misses' after) :
    Reclaims before (hits + hits') (misses + misses') after := by
  have sub : ∀ full, after.entries.contains full = true → before.entries.contains full = true :=
    fun full there => first.sub full (second.sub full there)
  have one := Table.size_eq_add_gone first.sub
  have two := Table.size_eq_add_gone second.sub
  have both := Table.size_eq_add_gone sub
  refine ⟨?_, sub⟩
  rw [second.ledger, first.ledger]
  ext
  · simp [Nat.add_assoc]
  · simp [Nat.add_assoc]
  · simp
  · simp
  · simp only [Ledger.expired_add]
    omega

/-- A read counts what it reclaims. -/
theorem readLive_reclaims (store : Store) (now : Nat) (full : Bytes) :
    Reclaims store 0 0 (store.readLive now full).2 := by
  unfold readLive
  cases found : store.entries.find? full with
  | none => exact .refl store
  | some entry =>
      dsimp only
      cases expired : entry.isExpired now with
      | false => exact .refl store
      | true =>
          have removed : removeIfExpired store.entries now full = (true, store.entries.erase full) := by
            simp [removeIfExpired, found, expired]
          have there : store.entries.contains full = true := by simp [Table.contains, found]
          have one := store.entries.size_gone_erase full
          rw [if_pos there] at one
          simp only [if_true, removed]
          refine ⟨?_, fun other => Table.contains_of_contains_filter⟩
          rw [one]
          rfl

/-- A counted read is a hit exactly if the key is live. -/
theorem read_reclaims (store : Store) (now : Nat) (key : Bytes) :
    Reclaims store ([key].countP fun key => (store.live? now key).isSome)
      ([key].countP fun key => (store.live? now key).isNone) (store.read now key).2 := by
  have reclaims := store.readLive_reclaims now (store.options.fullKey key)
  have value := readLive_fst store now (store.options.fullKey key)
  rw [← live?_eq] at value
  unfold read
  cases read : store.readLive now (store.options.fullKey key) with
  | mk found after =>
      rw [read] at reclaims value
      obtain ⟨ledger, sub⟩ := reclaims
      cases live : store.live? now key with
      | none =>
          rw [live] at value
          obtain rfl : found = none := value
          exact ⟨by simpa [Ledger.miss, live, Ledger.ext_iff] using Ledger.ext_iff.mp ledger, sub⟩
      | some entry =>
          rw [live] at value
          obtain rfl : found = some entry.value := value
          exact ⟨by simpa [Ledger.hit, live, Ledger.ext_iff] using Ledger.ext_iff.mp ledger, sub⟩

/-- A batch of reads has one hit or miss for each key of the list. -/
theorem readMany_reclaims (now : Nat) (keys : List Bytes) (found : Table Bytes) (store : Store) :
    Reclaims store (keys.countP fun key => (store.live? now key).isSome)
      (keys.countP fun key => (store.live? now key).isNone) (readMany now keys found store).2 := by
  induction keys generalizing found store with
  | nil => exact .refl store
  | cons key keys ih =>
      have first := store.read_reclaims now key
      have alike := read_alike store now key
      rw [← List.singleton_append, List.countP_append, List.countP_append, List.singleton_append,
        readMany]
      cases read : store.read now key with
      | mk value after =>
          rw [read] at first alike
          -- The first read changes nothing about what is live under the other keys.
          have same : after.live? now = store.live? now := funext alike.live?
          cases value with
          | none => exact first.trans (same ▸ ih found after)
          | some value => exact first.trans (same ▸ ih (found.insert key value) after)

/-- A batch gives a value to exactly those keys of the list that are live. -/
theorem contains_readMany (now : Nat) (keys : List Bytes) (store : Store) {key : Bytes}
    (mem : key ∈ keys) :
    (readMany now keys .empty store).1.contains key = (store.live? now key).isSome := by
  have inserted : ∀ (pairs : List (Bytes × Bytes)) (table : Table Bytes),
      (pairs.foldl (fun table pair => table.insert pair.1 pair.2) table).contains key =
        (table.contains key || pairs.any fun pair => decide (key = pair.1)) := by
    intro pairs
    induction pairs with
    | nil => simp
    | cons pair pairs ih =>
        intro table
        rw [List.foldl_cons, ih, Table.contains_insert, List.any_cons, ← Bool.or_assoc,
          Bool.or_comm (decide _)]
  rw [readMany_fst, inserted, Bool.eq_iff_iff]
  simp only [Table.contains, Table.find?_empty, Option.isSome_none, Bool.false_or, List.any_eq_true,
    List.mem_filterMap, decide_eq_true_eq]
  constructor
  · rintro ⟨pair, ⟨other, -, shown⟩, rfl⟩
    obtain ⟨entry, live, rfl⟩ := Option.map_eq_some_iff.mp shown
    rw [live]
    rfl
  · intro live
    obtain ⟨entry, live⟩ := Option.isSome_iff_exists.mp live
    exact ⟨(key, entry.value), ⟨key, mem, by rw [live]; rfl⟩, rfl⟩

/-! ### Sweeping -/

theorem removeIfExpired_size (entries : Table Entry) (now : Nat) (full : Bytes) :
    (removeIfExpired entries now full).2.size + (if (removeIfExpired entries now full).1 then 1 else 0)
      = entries.size := by
  have erased := entries.size_erase_add full
  unfold removeIfExpired
  cases found : entries.find? full with
  | none => rfl
  | some entry =>
      dsimp only
      rw [Table.contains, found, Option.isSome_some, if_pos rfl] at erased
      split
      · exact erased
      · rfl

/-- What is reclaimed is counted. -/
theorem reclaim_size (now : Nat) (keys : List Bytes) (entries : Table Entry) :
    (reclaim now keys entries).2.size + (reclaim now keys entries).1 = entries.size := by
  induction keys generalizing entries with
  | nil => rfl
  | cons key keys ih =>
      have first := removeIfExpired_size entries now key
      have rest := ih (removeIfExpired entries now key).2
      simp only [reclaim]
      omega

/-- A sweep counts what it reclaims. -/
theorem sweep_reclaims (store : Store) (now : Nat) : Reclaims store 0 0 (store.sweep now) := by
  have sub : ∀ full, (store.sweep now).entries.contains full = true →
      store.entries.contains full = true := fun _ => (store.sweep_onlyRemoves now).contains
  have gone := Table.size_eq_add_gone sub
  have size := reclaim_size now (expiredKeys store.entries now) store.entries
  have counted : (sweepEntries now store.entries).1 =
      (store.entries.gone (store.sweep now).entries).size := by
    show (reclaim now (expiredKeys store.entries now) store.entries).1 = _
    have entries : (store.sweep now).entries =
        (reclaim now (expiredKeys store.entries now) store.entries).2 := rfl
    rw [entries] at gone ⊢
    omega
  refine ⟨?_, sub⟩
  rw [← counted]
  rfl

/-! ### Books -/

/-- From one store to another, the ledger grows by a tally, and the created entries are there unless
they were deleted or have expired. -/
structure Books (before : Store) (tally : Ledger) (created : Nat) (after : Store) : Prop where
  ledger : after.ledger = before.ledger + tally
  entries : before.size + created = after.size + tally.deletes + tally.expired

theorem Books.refl (store : Store) : Books store 0 0 store := ⟨rfl, rfl⟩

theorem Books.trans {tally tally' : Ledger} {created created' : Nat}
    (first : Books before tally created store) (second : Books store tally' created' after) :
    Books before (tally + tally') (created + created') after := by
  refine ⟨?_, ?_⟩
  · rw [second.ledger, first.ledger, Ledger.add_assoc]
  · have one := first.entries
    have two := second.entries
    simp only [Ledger.deletes_add, Ledger.expired_add]
    omega

/-- What reads reclaim is in the books. -/
theorem Reclaims.books {hits misses : Nat} (reclaims : Reclaims before hits misses after) :
    Books before ⟨hits, misses, 0, 0, (before.entries.gone after.entries).size⟩ 0 after :=
  ⟨reclaims.ledger, Table.size_eq_add_gone reclaims.sub⟩

/-- A new entry under a key fills a slot exactly if the key had none. -/
theorem size_insert_fullKey (store : Store) (key : Bytes) (entry : Entry) :
    store.size + ([key].countP fun key => !store.entries.contains (store.options.fullKey key)) =
      (store.entries.insert (store.options.fullKey key) entry).size := by
  rw [Table.size_insert, List.countP_singleton]
  cases store.entries.contains (store.options.fullKey key) <;> rfl

/-- What is written is in the books. -/
theorem write_books (store : Store) (now : Nat) (key value : Bytes) (ttl : Duration) :
    Books store ⟨0, 0, 1, 0, 0⟩
      ([key].countP fun key => !store.entries.contains (store.options.fullKey key))
      (store.write now key value ttl) :=
  ⟨rfl, store.size_insert_fullKey key (store.newEntry now value ttl)⟩

theorem contains_write (store : Store) (now : Nat) (key other value : Bytes) (ttl : Duration) :
    (store.write now key value ttl).entries.contains (store.options.fullKey other) =
      (decide (other = key) || store.entries.contains (store.options.fullKey other)) := by
  show (store.entries.insert _ _).contains _ = _
  rw [Table.contains_insert]
  simp only [Options.fullKey_inj]

/-- Of several entries that are written under different keys, those are created whose keys had none
at the beginning. -/
theorem writeMany_books (now : Nat) (ttl : Duration) {pairs : List (Bytes × Bytes)}
    (distinct : (pairs.map Prod.fst).Nodup) (store : Store) :
    Books store ⟨0, 0, pairs.length, 0, 0⟩
      ((pairs.map Prod.fst).countP fun key => !store.entries.contains (store.options.fullKey key))
      (writeMany now ttl pairs store) := by
  induction pairs generalizing store with
  | nil => exact .refl store
  | cons pair pairs ih =>
      obtain ⟨new, distinct⟩ := List.nodup_cons.mp distinct
      have rest := ih distinct (store.write now pair.1 pair.2 ttl)
      -- The first write fills no slot of another key.
      have same : ((pairs.map Prod.fst).countP fun key =>
          !(store.write now pair.1 pair.2 ttl).entries.contains (store.options.fullKey key)) =
          (pairs.map Prod.fst).countP fun key =>
            !store.entries.contains (store.options.fullKey key) := by
        refine List.countP_congr fun key mem => ?_
        have other : key ≠ pair.1 := fun eq => new (eq ▸ mem)
        rw [contains_write, decide_eq_false other, Bool.false_or]
      have both := (store.write_books now pair.1 pair.2 ttl).trans rest
      have options : (store.write now pair.1 pair.2 ttl).options = store.options := rfl
      rw [options, same, ← List.countP_append] at both
      rw [List.length_cons, Nat.add_comm pairs.length]
      exact both

/-- What only takes entries away and counts them as deleted keeps the books. -/
theorem books_of_deletes {store after : Store} {count : Nat}
    (ledger : after.ledger = store.ledger.delete count) (size : after.size + count = store.size)
    (sub : ∀ full, after.entries.contains full = true → store.entries.contains full = true) :
    Books store ⟨0, 0, 0, (store.entries.gone after.entries).size, 0⟩ 0 after := by
  have gone : store.size = after.size + (store.entries.gone after.entries).size :=
    Table.size_eq_add_gone sub
  have counted : (store.entries.gone after.entries).size = count := by omega
  rw [counted]
  exact ⟨ledger, by simpa using size.symm⟩

theorem remove_books (store : Store) (key : Bytes) :
    Books store ⟨0, 0, 0, (store.entries.gone (store.remove key).entries).size, 0⟩ 0
      (store.remove key) := by
  have size := store.entries.size_erase_add (store.options.fullKey key)
  unfold remove
  dsimp only
  by_cases there : store.entries.contains (store.options.fullKey key) = true
  · rw [if_pos there] at size ⊢
    exact books_of_deletes rfl size fun full => Table.contains_of_contains_filter
  · rw [if_neg there]
    exact @books_of_deletes store store 0 rfl rfl fun _ there => there

theorem removeAll_books (store : Store) (selected : Bytes → Bool) :
    Books store ⟨0, 0, 0, (store.entries.gone (store.removeAll selected).2.entries).size, 0⟩ 0
      (store.removeAll selected).2 := by
  have split := store.entries.size_eq_add fun full _ => store.selects selected full
  refine books_of_deletes rfl ?_ fun full => Table.contains_of_contains_filter
  exact (Nat.add_comm _ _).trans split.symm

/-! ### Calls -/

/-- What is refused counts for nothing. -/
theorem tally_refused (op : Operation) {failure : CacheError} (refused : failure.isNotFound = false)
    (now : Nat) (store : Store) :
    op.tally (.error failure) now store store = 0 ∧ op.created (.error failure) store = 0 := by
  have reads : op.reads (.error failure) = [] := by
    cases op <;> cases failure <;> first | rfl | cases refused
  have writes : op.writes (.error failure) = [] := by cases op <;> rfl
  have counts : op.counts (.error failure) = [] := by cases op <;> rfl
  refine ⟨?_, by rw [Operation.created, writes, counts]; rfl⟩
  simp only [Operation.tally, reads, writes, Table.size_gone_self, ite_self]
  rfl

/-- An operation that is carried out keeps the books. -/
theorem carryOut_books (store : Store) (now : Nat) {op : Operation} (data : op.isData = true) :
    Books store (op.tally (store.carryOut now op).1 now store (store.carryOut now op).2)
      (op.created (store.carryOut now op).1 store) (store.carryOut now op).2 := by
  have refused : ∀ failure : CacheError, failure.isNotFound = false →
      Books store (op.tally (.error failure) now store store) (op.created (.error failure) store)
        store := by
    intro failure plain
    obtain ⟨tally, created⟩ := tally_refused op plain now store
    rw [tally, created]
    exact .refl store
  cases op with
  | get key =>
      have books := (store.read_reclaims now key).books
      rw [carryOut_get]
      cases live : store.live? now key with
      | none => simpa [Operation.tally, Operation.created, Operation.reads, Operation.gives,
          Operation.writes, Operation.counts, Operation.removes, Operation.reclaims, live] using books
      | some entry => simpa [Operation.tally, Operation.created, Operation.reads, Operation.gives,
          Operation.writes, Operation.counts, Operation.removes, Operation.reclaims, live] using books
  | set key value ttl => exact store.write_books now key value ttl
  | delete key => exact store.remove_books key
  | has key => exact (store.readLive_reclaims now (store.options.fullKey key)).books
  | flush => exact store.removeAll_books fun _ => true
  | invalidate pattern => exact store.removeAll_books (Glob.accepts pattern)
  | close => cases data
  | stats => exact .refl store
  | increment key delta =>
      obtain ⟨reason, failed⟩ | ⟨next, entry, counted⟩ := store.add_cases now key delta
      · rw [carryOut, failed]
        exact refused _ rfl
      · rw [carryOut, counted]
        exact ⟨rfl, store.size_insert_fullKey key entry⟩
  | decrement key delta =>
      obtain ⟨reason, failed⟩ | ⟨next, entry, counted⟩ := store.add_cases now key (-delta)
      · rw [carryOut, failed]
        exact refused _ rfl
      · rw [carryOut, counted]
        exact ⟨rfl, store.size_insert_fullKey key entry⟩
  | setIfAbsent key value ttl =>
      rw [carryOut_setIfAbsent]
      cases (store.live? now key).isSome with
      | true => exact .refl store
      | false => exact store.write_books now key value ttl
  | getMany keys =>
      have books := (readMany_reclaims now keys .empty store).books
      have given : (keys.countP fun key => (readMany now keys .empty store).1.contains key) =
          keys.countP fun key => (store.live? now key).isSome :=
        List.countP_congr fun key mem => by rw [contains_readMany now keys store mem]
      rw [← given] at books
      exact books
  | setMany entries ttl =>
      have books := writeMany_books now ttl entries.distinct store
      have slots : Operation.created (.setMany entries ttl) (.ok ()) store =
          (entries.pairs.map Prod.fst).countP fun key =>
            !store.entries.contains (store.options.fullKey key) :=
        congrArg (List.countP _) (List.append_nil _)
      show Books store ⟨0, 0, entries.keys.length, 0, 0⟩
        (Operation.created (.setMany entries ttl) (.ok ()) store) (writeMany now ttl entries.pairs store)
      rw [slots, Table.length_keys]
      exact books
  | remaining key =>
      rw [carryOut_remaining]
      cases store.live? now key with
      | none => exact .refl store
      | some entry => exact .refl store

/-! ### Runs -/

/-- A call keeps the books of a store that it leaves open. -/
theorem perform_books (store : Store) (now : Nat) (standing : Standing) {op : Operation}
    (data : op.isData = true) :
    Books store
      (op.tally (store.perform now standing op).1 now store (store.perform now standing op).2)
      (op.created (store.perform now standing op).1 store) (store.perform now standing op).2 := by
  unfold perform
  rw [if_pos data]
  cases refusal : store.refusal? standing with
  | none => exact store.carryOut_books now data
  | some failure =>
      obtain ⟨tally, created⟩ := tally_refused op (isNotFound_of_refusal refusal) now store
      show Books store (op.tally (.error failure) now store store)
        (op.created (.error failure) store) store
      rw [tally, created]
      exact .refl store

/-- An event keeps the books of a store that it leaves open. -/
theorem happen_books (now : Nat) (store : Store) (event : Event)
    (isOpen : (machine.happen now store event).2.isOpen = true) :
    store.isOpen = true ∧
      Books store (Stage.tally ⟨now, store, event, (machine.happen now store event).2⟩)
        (Stage.created ⟨now, store, event, (machine.happen now store event).2⟩)
        (machine.happen now store event).2 := by
  cases event with
  | call standing op =>
      obtain ⟨data, before⟩ := isOpen_of_perform isOpen
      exact ⟨before, store.perform_books now standing data⟩
  | advance millis => exact ⟨isOpen, .refl store⟩
  | sweep => exact ⟨isOpen, (store.sweep_reclaims now).books⟩

/-- A run keeps the books of a store that it leaves open. -/
theorem run_books (now : Nat) (store : Store) (events : List Event)
    (isOpen : (machine.reach now store events).2.isOpen = true) :
    store.isOpen = true ∧
      Books store ((machine.history now store events).map Stage.tally).sum
        ((machine.history now store events).map Stage.created).sum
        (machine.reach now store events).2 := by
  induction events generalizing now store with
  | nil => exact ⟨isOpen, .refl store⟩
  | cons event events ih =>
      obtain ⟨between, rest⟩ := ih _ _ isOpen
      obtain ⟨before, first⟩ := happen_books now store event between
      refine ⟨before, ?_⟩
      simp only [Machine.history, List.map_cons, List.sum_cons]
      exact first.trans rest

end Store

/-! ### Published figures -/

/-- Counts below 2^64 are published as they are. -/
theorem Ledger.published_eq {ledger : Ledger} (hits : ledger.hits < word64)
    (misses : ledger.misses < word64) (sets : ledger.sets < word64)
    (deletes : ledger.deletes < word64) (expired : ledger.expired < word64) :
    ledger.published = ledger := by
  ext
  · exact Nat.mod_eq_of_lt hits
  · exact Nat.mod_eq_of_lt misses
  · exact Nat.mod_eq_of_lt sets
  · exact Nat.mod_eq_of_lt deletes
  · exact Nat.mod_eq_of_lt expired

/-- No count of an event exceeds the keys that were touched. -/
theorem Stage.tally_le (stage : Stage Store) :
    stage.tally.hits ≤ stage.touched ∧ stage.tally.misses ≤ stage.touched ∧
      stage.tally.sets ≤ stage.touched ∧ stage.created ≤ stage.touched := by
  obtain ⟨now, before, event, after⟩ := stage
  cases event with
  | call standing op =>
      generalize given : (before.perform now standing op).1 = answer
      have hits := @List.countP_le_length _ (fun key => op.gives key answer) (op.reads answer)
      have misses := @List.countP_le_length _ (fun key => (before.live? now key).isNone)
        (op.reads answer)
      have created := @List.countP_le_length _
        (fun key => !before.entries.contains (before.options.fullKey key))
        (op.writes answer ++ op.counts answer)
      rw [List.length_append] at created
      simp only [tally, Stage.touched, Stage.created, Stage.answer, Operation.tally,
        Operation.touched, Operation.created, given]
      omega
  | advance millis => exact ⟨Nat.le_refl 0, Nat.le_refl 0, Nat.le_refl 0, Nat.le_refl 0⟩
  | sweep => exact ⟨Nat.le_refl 0, Nat.le_refl 0, Nat.le_refl 0, Nat.le_refl 0⟩

/-- No sum of counts exceeds the keys that were touched. -/
theorem sum_tally_le (stages : List (Stage Store)) :
    (stages.map Stage.tally).sum.hits ≤ (stages.map Stage.touched).sum ∧
      (stages.map Stage.tally).sum.misses ≤ (stages.map Stage.touched).sum ∧
      (stages.map Stage.tally).sum.sets ≤ (stages.map Stage.touched).sum ∧
      (stages.map Stage.created).sum ≤ (stages.map Stage.touched).sum := by
  induction stages with
  | nil => exact ⟨Nat.le_refl 0, Nat.le_refl 0, Nat.le_refl 0, Nat.le_refl 0⟩
  | cons stage stages ih =>
      have first := stage.tally_le
      simp only [List.map_cons, List.sum_cons, Ledger.hits_add, Ledger.misses_add, Ledger.sets_add]
      omega

/-- **The published ledger is exact.**  Whatever happens to a store that is still open, each figure
that it publishes is the number of events of its kind, as long as fewer than 2^64 keys were touched.
Every entry that was created is still there, or was counted once, as deleted or as expired. -/
theorem Store.published_eq_sum_tally (options : Options) (start : Nat) (events : List Event)
    (isOpen : (machine.reach start (.fresh options) events).2.isOpen = true)
    (few : ((machine.history start (.fresh options) events).map Stage.touched).sum < word64) :
    let stages := machine.history start (.fresh options) events
    let store := (machine.reach start (.fresh options) events).2
    store.ledger.published = (stages.map Stage.tally).sum ∧
      (stages.map Stage.created).sum =
        store.size + store.ledger.published.deletes + store.ledger.published.expired := by
  intro stages store
  obtain ⟨-, books⟩ := run_books start (.fresh options) events isOpen
  have ledger : store.ledger = (stages.map Stage.tally).sum :=
    books.ledger.trans (Ledger.zero_add _)
  have entries : (stages.map Stage.created).sum =
      store.size + store.ledger.deletes + store.ledger.expired := by
    rw [ledger]
    have none : (Store.fresh options).size = 0 := rfl
    have balance := books.entries
    rw [none, Nat.zero_add] at balance
    exact balance
  obtain ⟨hits, misses, sets, created⟩ := sum_tally_le stages
  rw [← ledger] at hits misses sets
  have few : (stages.map Stage.touched).sum < word64 := few
  have published : store.ledger.published = store.ledger :=
    Ledger.published_eq (by omega) (by omega) (by omega) (by omega) (by omega)
  rw [published]
  exact ⟨ledger, entries⟩

/-- A run in which entries expire before they are read, swept, overwritten and deleted. -/
def sampleRun : List Event :=
  [.call .live (.set (utf8 "a") (utf8 "1") (.ofMillis 5)),
    .call .live (.setIfAbsent (utf8 "b") (utf8 "2") (.ofMillis 5)),
    .call .live (.increment (utf8 "n") 3),
    .call .canceled (.get (utf8 "a")),
    .call .live (.getMany [utf8 "a", utf8 "x", utf8 "a"]),
    .advance 5,
    .call .live (.get (utf8 "a")),
    .call .live (.set (utf8 "b") (utf8 "3") (.ofMillis 5)),
    .advance 5,
    .sweep,
    .call .live (.delete (utf8 "n")),
    .call .live (.set (utf8 "c") (utf8 "4") .zero)]

/-- The figures of that run: two reads with a value and two without, four writes that count as such,
and of four created entries one is left, one was deleted and two have expired. -/
theorem Store.published_sampleRun :
    (machine.reach 0 (.fresh .standard) sampleRun).2.isOpen = true ∧
      ((machine.history 0 (.fresh .standard) sampleRun).map Stage.touched).sum < word64 ∧
      (machine.reach 0 (.fresh .standard) sampleRun).2.ledger.published = ⟨2, 2, 4, 1, 2⟩ ∧
      ((machine.history 0 (.fresh .standard) sampleRun).map Stage.created).sum =
        (machine.reach 0 (.fresh .standard) sampleRun).2.size + 1 + 2 := by
  have isOpen : (machine.reach 0 (.fresh .standard) sampleRun).2.isOpen = true := by decide +kernel
  have few : ((machine.history 0 (.fresh .standard) sampleRun).map Stage.touched).sum < word64 := by
    decide +kernel
  have tally : ((machine.history 0 (.fresh .standard) sampleRun).map Stage.tally).sum =
      ⟨2, 2, 4, 1, 2⟩ := by decide +kernel
  obtain ⟨ledger, entries⟩ := published_eq_sum_tally .standard 0 sampleRun isOpen few
  have ledger := ledger.trans tally
  rw [ledger] at entries
  exact ⟨isOpen, few, ledger, entries⟩

end TimedCache
