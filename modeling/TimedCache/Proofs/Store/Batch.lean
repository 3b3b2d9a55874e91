import TimedCache.Proofs.Store.Failure

/-!
# Batches

A batch of reads or writes is **nothing but its single operations**, carried out one after another at the
same moment (`Store.batches_eq_singles`).

**Reads.**  A batch finds of every key what a single read finds, and leaves the very store that the single
reads leave, one for each occurrence of a key.  So a key that has expired is reclaimed where it occurs
first, and is a plain miss from then on.

**Writes.**  The keys of a batch of writes are distinct, so no write undoes another one, and their order
does not matter.  Only the tables list the entries in different orders, which no lookup shows
(`Store.Same`).

## Main Definitions

* `Event.calls` — several operations, called one after another
* `Store.Same` — stores that no lookup tells apart
-/

namespace TimedCache

/-- Several operations, called one after another by someone whose work may go on. -/
def Event.calls (ops : List Operation) : List Event :=
  ops.map (.call .live)

namespace Store

variable {now : Nat} {store : Store}

/-! ### Reads -/

/-- A batch of reads begins with a read of its first key. -/
theorem readMany_cons (now : Nat) (key : Bytes) (keys : List Bytes) (found : Table Bytes)
    (store : Store) :
    readMany now (key :: keys) found store =
      readMany now keys ((store.read now key).1.elim found fun value => found.insert key value)
        (store.read now key).2 := by
  rw [readMany]
  cases store.read now key with
  | mk value store' => cases value <;> rfl

/-- What a batch of reads finds of a key is what is live under it. -/
theorem find?_readMany (now : Nat) (keys : List Bytes) (found : Table Bytes) (store : Store)
    (key : Bytes) :
    (readMany now keys found store).1.find? key =
      if key ∈ keys then ((store.live? now key).map Entry.value).or (found.find? key)
      else found.find? key := by
  induction keys generalizing found store with
  | nil => rfl
  | cons first keys ih =>
      -- The read of the first key changes nothing about what is live.
      rw [readMany_cons, ih, (read_alike store now first).live?, read_fst]
      by_cases same : key = first
      · subst same
        cases store.live? now key <;> simp [Table.find?_insert]
      · cases store.live? now first <;> simp [Table.find?_insert, same]

/-- A batch of reads finds what is live. -/
theorem perform_getMany (isOpen : store.isOpen = true) (now : Nat) (keys : List Bytes) :
    ∃ found, (store.perform now .live (.getMany keys)).1 = .ok found ∧
      ∀ key, found.find? key =
        if key ∈ keys then (store.live? now key).map Entry.value else none := by
  rw [perform_of_open isOpen]
  refine ⟨_, rfl, fun key => ?_⟩
  rw [find?_readMany, Table.find?_empty, Option.or_none]

/-- Single reads, one for each key of a batch, leave what the batch leaves. -/
theorem reach_gets (isOpen : store.isOpen = true) (now : Nat) (keys : List Bytes)
    (found : Table Bytes) :
    machine.reach now store (Event.calls (keys.map .get)) =
      (now, (readMany now keys found store).2) := by
  induction keys generalizing found store with
  | nil => rfl
  | cons key keys ih =>
      have called : (store.perform now .live (.get key)).2 = (store.read now key).2 := by
        rw [perform_of_open isOpen, carryOut_get]
      have isOpen' : (store.read now key).2.isOpen = true :=
        (read_alike store now key).isOpen.trans isOpen
      show machine.reach now (store.perform now .live (.get key)).2 (Event.calls (keys.map .get)) = _
      rw [called, readMany_cons]
      exact ih isOpen' _

/-! ### Writes -/

/-- Stores that no lookup tells apart: they differ at most in the order in which their tables list the
entries. -/
structure Same (store other : Store) : Prop where
  options : other.options = store.options
  isOpen : other.isOpen = store.isOpen
  ledger : other.ledger = store.ledger
  entries : ∀ full, other.entries.find? full = store.entries.find? full

/-- Such stores show the same at all times. -/
theorem Same.alike {other : Store} (same : store.Same other) (now : Nat) :
    Alike now store other :=
  ⟨same.options, same.isOpen, fun full => by rw [Table.live?, same.entries, Table.live?]⟩

variable {ttl : Duration} {pairs : List (Bytes × Bytes)}

/-- Apart from the entries, a batch of writes changes no more than the number of writes. -/
theorem writeMany_kept (now : Nat) (ttl : Duration) (pairs : List (Bytes × Bytes)) (store : Store) :
    (writeMany now ttl pairs store).options = store.options ∧
      (writeMany now ttl pairs store).isOpen = store.isOpen ∧
      (writeMany now ttl pairs store).ledger = store.ledger.setMany pairs.length := by
  induction pairs generalizing store with
  | nil => exact ⟨rfl, rfl, rfl⟩
  | cons pair pairs ih =>
      obtain ⟨options, isOpen, ledger⟩ := ih (store.write now pair.1 pair.2 ttl)
      have counted : Ledger.setMany pairs.length (store.write now pair.1 pair.2 ttl).ledger =
          store.ledger.setMany (pairs.length + 1) := by
        simp only [Ledger.setMany, Ledger.set, write, Ledger.mk.injEq, true_and, and_true]
        omega
      exact ⟨options, isOpen, ledger.trans counted⟩

/-- A batch of writes leaves alone what is not filed under its keys. -/
theorem find?_writeMany_of_ne {full : Bytes}
    (ne : ∀ pair ∈ pairs, full ≠ store.options.fullKey pair.1) :
    (writeMany now ttl pairs store).entries.find? full = store.entries.find? full := by
  induction pairs generalizing store with
  | nil => rfl
  | cons pair pairs ih =>
      obtain ⟨first, others⟩ := List.forall_mem_cons.mp ne
      have rest : (writeMany now ttl pairs (store.write now pair.1 pair.2 ttl)).entries.find? full =
          (store.write now pair.1 pair.2 ttl).entries.find? full := ih others
      exact rest.trans ((Table.find?_insert _ _ _ _).trans (if_neg first))

/-- Under each of its keys, a batch of writes puts the value of that key. -/
theorem find?_writeMany_of_mem (distinct : (pairs.map Prod.fst).Nodup) {key value : Bytes}
    (mem : (key, value) ∈ pairs) :
    (writeMany now ttl pairs store).entries.find? (store.options.fullKey key) =
      some (store.newEntry now value ttl) := by
  induction pairs generalizing store with
  | nil => cases mem
  | cons pair pairs ih =>
      obtain ⟨new, distinct⟩ := List.nodup_cons.mp distinct
      show (writeMany now ttl pairs (store.write now pair.1 pair.2 ttl)).entries.find? _ = _
      obtain rfl | later := List.mem_cons.mp mem
      · -- No later write is under the same key.
        have ne : ∀ pair ∈ pairs, store.options.fullKey key ≠ store.options.fullKey pair.1 := by
          intro pair mem same
          have same : key = pair.1 := store.options.fullKey_inj.mp same
          exact new (List.mem_map.mpr ⟨pair, mem, same.symm⟩)
        have kept := @find?_writeMany_of_ne now (store.write now key value ttl) ttl pairs
          (store.options.fullKey key) ne
        exact kept.trans ((Table.find?_insert _ _ _ _).trans (if_pos rfl))
      · exact @ih (store.write now pair.1 pair.2 ttl) distinct later

/-- **The order of the writes** of a batch does not matter. -/
theorem writeMany_perm {order : List (Bytes × Bytes)} (perm : order.Perm pairs)
    (distinct : (pairs.map Prod.fst).Nodup) (now : Nat) (ttl : Duration) (store : Store) :
    (writeMany now ttl pairs store).Same (writeMany now ttl order store) := by
  obtain ⟨options, isOpen, ledger⟩ := writeMany_kept now ttl pairs store
  obtain ⟨options', isOpen', ledger'⟩ := writeMany_kept now ttl order store
  have distinct' : (order.map Prod.fst).Nodup := (perm.map Prod.fst).nodup_iff.mpr distinct
  refine ⟨options'.trans options.symm, isOpen'.trans isOpen.symm, ?_, fun full => ?_⟩
  · rw [ledger, ledger', perm.length_eq]
  · by_cases among : ∃ pair ∈ pairs, full = store.options.fullKey pair.1
    · obtain ⟨⟨key, value⟩, mem, rfl⟩ := among
      rw [find?_writeMany_of_mem distinct mem,
        find?_writeMany_of_mem distinct' (perm.mem_iff.mpr mem)]
    · have ne : ∀ pair ∈ pairs, full ≠ store.options.fullKey pair.1 :=
        fun pair mem same => among ⟨pair, mem, same⟩
      rw [find?_writeMany_of_ne ne,
        find?_writeMany_of_ne fun pair mem => ne pair (perm.mem_iff.mp mem)]

/-- Single writes leave what a batch of them leaves. -/
theorem reach_sets (isOpen : store.isOpen = true) (now : Nat) (ttl : Duration)
    (pairs : List (Bytes × Bytes)) :
    machine.reach now store (Event.calls (pairs.map fun pair => .set pair.1 pair.2 ttl)) =
      (now, writeMany now ttl pairs store) := by
  induction pairs generalizing store with
  | nil => rfl
  | cons pair pairs ih =>
      have called : (store.perform now .live (.set pair.1 pair.2 ttl)).2 =
          store.write now pair.1 pair.2 ttl := by
        rw [perform_of_open isOpen]
        rfl
      have first : (store.write now pair.1 pair.2 ttl).isOpen = true := isOpen
      show machine.reach now (store.perform now .live (.set pair.1 pair.2 ttl)).2 _ = _
      rw [called]
      exact ih first

/-! ### Batches -/

/-- **Batches are their single operations.**  On an open store, a batch of reads finds exactly those of its
keys that a single read finds, with the same values, and it leaves the store that single reads of all its
keys leave, one after another.  A batch of writes leaves what single writes of its entries leave, in
whatever order. -/
theorem batches_eq_singles (isOpen : store.isOpen = true) (now : Nat) :
    (∀ keys : List Bytes,
      let batch := store.perform now .live (.getMany keys)
      (∃ found, batch.1 = .ok found ∧ ∀ key value, found.find? key = some value ↔
        key ∈ keys ∧ (store.perform now .live (.get key)).1 = .ok value) ∧
      machine.reach now store (Event.calls (keys.map .get)) = (now, batch.2)) ∧
    ∀ (entries : Table Bytes) (ttl : Duration) (order : List (Bytes × Bytes)),
      order.Perm entries.pairs →
      let batch := store.perform now .live (.setMany entries ttl)
      let singles := machine.reach now store
        (Event.calls (order.map fun pair => .set pair.1 pair.2 ttl))
      batch.1 = .ok () ∧ singles.1 = now ∧ batch.2.Same singles.2 := by
  refine ⟨fun keys => ?_, fun entries ttl order perm => ?_⟩
  · intro batch
    have carried : batch = (.ok (readMany now keys .empty store).1,
        (readMany now keys .empty store).2) := perform_of_open isOpen now (.getMany keys)
    obtain ⟨found, answered, finds⟩ := perform_getMany isOpen now keys
    refine ⟨⟨found, answered, fun key value => ?_⟩, ?_⟩
    · rw [finds, perform_of_open isOpen, carryOut_get]
      cases store.live? now key <;> simp
    · rw [carried]
      exact reach_gets isOpen now keys .empty
  · intro batch singles
    have carried : batch = (.ok (), writeMany now ttl entries.pairs store) :=
      perform_of_open isOpen now (.setMany entries ttl)
    have called : singles = (now, writeMany now ttl order store) := reach_sets isOpen now ttl order
    rw [carried, called]
    exact ⟨rfl, rfl, writeMany_perm perm entries.distinct now ttl store⟩

/-- An open store in which one key has expired and another one is live, when the clock shows 12. -/
def halfExpired : Store :=
  (machine.reach 0 (.fresh .standard)
    [.call .live (.set (utf8 "a") (utf8 "1") (.ofMillis 10)),
      .call .live (.set (utf8 "b") (utf8 "2") .zero)]).2

/-- A batch asks twice for the expired key.  It is reclaimed once, and it is missed twice, as it is by two
single reads.  A batch of writes replaces it, whichever entry is written first. -/
theorem batches_eq_singles_halfExpired :
    let asked := [utf8 "a", utf8 "b", utf8 "a"]
    let reads := halfExpired.perform 12 .live (.getMany asked)
    let entries := Table.ofList [(utf8 "a", utf8 "3"), (utf8 "c", utf8 "4")]
    halfExpired.isOpen = true ∧
      (∃ found, reads.1 = .ok found ∧ found.find? (utf8 "a") = none ∧
        found.find? (utf8 "b") = some (utf8 "2")) ∧
      machine.reach 12 halfExpired (Event.calls (asked.map .get)) = (12, reads.2) ∧
      reads.2.ledger = ⟨1, 2, 2, 0, 1⟩ ∧
      (halfExpired.perform 12 .live (.setMany entries .zero)).2.Same
        (machine.reach 12 halfExpired (Event.calls
          [.set (utf8 "a") (utf8 "3") .zero, .set (utf8 "c") (utf8 "4") .zero])).2 := by
  intro asked reads entries
  have isOpen : halfExpired.isOpen = true := by decide +kernel
  obtain ⟨reading, writing⟩ := batches_eq_singles isOpen 12
  obtain ⟨⟨found, answered, finds⟩, same⟩ := reading asked
  have gone : found.find? (utf8 "a") = none := by
    refine Option.eq_none_iff_forall_ne_some.mpr fun value shown => ?_
    have single := ((finds (utf8 "a") value).mp shown).2
    have missed : (halfExpired.perform 12 .live (.get (utf8 "a"))).1 =
        .error (.notFound (utf8 "a")) := by decide +kernel
    cases single.symm.trans missed
  have shown : found.find? (utf8 "b") = some (utf8 "2") :=
    (finds _ _).mpr ⟨by decide +kernel, by decide +kernel⟩
  obtain ⟨-, -, alike⟩ := writing entries .zero
    [(utf8 "a", utf8 "3"), (utf8 "c", utf8 "4")] (by decide +kernel)
  exact ⟨isOpen, ⟨found, answered, gone, shown⟩, same, by decide +kernel, alike⟩

end Store

end TimedCache
