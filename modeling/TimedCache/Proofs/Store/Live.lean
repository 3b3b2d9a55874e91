import TimedCache.Proofs.Run
import TimedCache.Sweeper

/-!
# Live entries

An expired entry may lie in the table of a store for a while, and whether it does is nobody's
business: what operations see are the **live** entries, `Table.live?`.

**Reclaiming is invisible.**  What is reclaimed has expired, and nothing else changes
(`Table.Reclaimed`).  Two stores are `Alike` at a moment when they differ in nothing but
expired entries and their ledgers.  A read, a batch of reads and a sweep each leave a store that is
alike (`readLive_alike`, `readMany_alike`, `sweep_alike`).

**Time only takes away.**  What is live later is what was live before and has not expired since
(`live?_later`).

**Only closing closes.**  A store that is open behind a call was open before it
(`isOpen_of_perform`).
-/

namespace TimedCache

/-- What is left of something at a later time has not expired then. -/
theorem Entry.filter_later {now later : Nat} (le : now ≤ later) (shown : Option Entry) :
    (shown.filter fun entry => !entry.isExpired now).filter (fun entry => !entry.isExpired later) =
      shown.filter fun entry => !entry.isExpired later := by
  rw [Option.filter_filter]
  congr 1
  funext entry
  cases expired : entry.isExpired now with
  | true => simp [Entry.isExpired_mono le expired]
  | false => simp

/-! ### Tables of entries -/

namespace Table

/-- The entry of a key, unless it has expired. -/
def live? (entries : Table Entry) (now : Nat) (full : Bytes) : Option Entry :=
  (entries.find? full).filter fun entry => !entry.isExpired now

theorem live?_of_find? {entries : Table Entry} {now : Nat} {full : Bytes} {entry : Entry}
    (found : entries.find? full = some entry) (unexpired : entry.isExpired now = false) :
    entries.live? now full = some entry := by
  rw [live?, found, Option.filter_some, unexpired]
  rfl

theorem live?_insert (key full : Bytes) (entry : Entry) (entries : Table Entry) (now : Nat) :
    (entries.insert key entry).live? now full =
      if full = key then (some entry).filter fun entry => !entry.isExpired now
      else entries.live? now full := by
  rw [live?, find?_insert]
  split <;> rfl

theorem live?_erase (key full : Bytes) (entries : Table Entry) (now : Nat) :
    (entries.erase key).live? now full = if full = key then none else entries.live? now full := by
  rw [live?, find?_erase]
  split <;> rfl

/-- A filter that looks at the keys alone keeps or drops what is live under a key. -/
theorem live?_filter_key (keep : Bytes → Bool) (full : Bytes) (entries : Table Entry) (now : Nat) :
    (entries.filter fun key _ => keep key).live? now full =
      if keep full then entries.live? now full else none := by
  rw [live?, find?_filter, live?]
  cases entries.find? full <;> cases keep full <;> rfl

/-- What is live later has not expired since. -/
theorem live?_later {now later : Nat} (le : now ≤ later) (entries : Table Entry) (full : Bytes) :
    entries.live? later full =
      (entries.live? now full).filter fun entry => !entry.isExpired later :=
  (Entry.filter_later le (entries.find? full)).symm

/-! ### Reclaiming -/

/-- From one table to another, whatever is gone was expired, and nothing else has changed. -/
def Reclaimed (now : Nat) (before after : Table Entry) : Prop :=
  ∀ full, after.find? full = before.find? full ∨
    (after.find? full = none ∧
      ∃ entry, before.find? full = some entry ∧ entry.isExpired now = true)

theorem Reclaimed.refl (now : Nat) (entries : Table Entry) : Reclaimed now entries entries :=
  fun _ => .inl rfl

/-- What is live stays as it is. -/
theorem Reclaimed.live? {now : Nat} {before after : Table Entry}
    (reclaimed : Reclaimed now before after) (full : Bytes) :
    after.live? now full = before.live? now full := by
  unfold Table.live?
  obtain same | ⟨gone, entry, found, expired⟩ := reclaimed full
  · rw [same]
  · rw [gone, found, Option.filter_some, expired]
    rfl

/-- What is there afterwards was there before. -/
theorem Reclaimed.sub {now : Nat} {before after : Table Entry}
    (reclaimed : Reclaimed now before after) {full : Bytes} {entry : Entry}
    (found : after.find? full = some entry) : before.find? full = some entry := by
  obtain same | ⟨gone, -⟩ := reclaimed full
  · exact same.symm.trans found
  · rw [gone] at found
    cases found

theorem Reclaimed.trans {now : Nat} {before between after : Table Entry}
    (first : Reclaimed now before between) (second : Reclaimed now between after) :
    Reclaimed now before after := by
  intro full
  obtain same | ⟨gone, entry, found, expired⟩ := second full
  · rw [same]
    exact first full
  · exact .inr ⟨gone, entry, first.sub found, expired⟩

/-- Erasing an expired entry is such a change. -/
theorem erase_reclaimed {entries : Table Entry} {now : Nat} {key : Bytes} {entry : Entry}
    (found : entries.find? key = some entry) (expired : entry.isExpired now = true) :
    Reclaimed now entries (entries.erase key) := by
  intro full
  rw [find?_erase]
  by_cases same : full = key
  · subst same
    exact .inr ⟨if_pos rfl, entry, found, expired⟩
  · exact .inl (if_neg same)

/-- The conditional removal leaves the table alone, or erases an expired entry. -/
theorem removeIfExpired_cases (entries : Table Entry) (now : Nat) (full : Bytes) :
    removeIfExpired entries now full = (false, entries) ∨
      ∃ entry, entries.find? full = some entry ∧ entry.isExpired now = true ∧
        removeIfExpired entries now full = (true, entries.erase full) := by
  unfold removeIfExpired
  cases found : entries.find? full with
  | none => exact .inl rfl
  | some entry =>
      dsimp only
      cases expired : entry.isExpired now with
      | false => exact .inl rfl
      | true => exact .inr ⟨entry, rfl, expired, rfl⟩

theorem removeIfExpired_reclaimed (entries : Table Entry) (now : Nat) (key : Bytes) :
    Reclaimed now entries (removeIfExpired entries now key).2 := by
  obtain kept | ⟨entry, found, expired, erased⟩ := removeIfExpired_cases entries now key
  · rw [kept]
    exact .refl now entries
  · rw [erased]
    exact erase_reclaimed found expired

/-- Removing an expired entry takes nothing away that is live. -/
theorem live?_removeIfExpired (entries : Table Entry) (now : Nat) (key full : Bytes) :
    (removeIfExpired entries now key).2.live? now full = entries.live? now full :=
  (removeIfExpired_reclaimed entries now key).live? full

theorem reclaim_reclaimed (now : Nat) (keys : List Bytes) (entries : Table Entry) :
    Reclaimed now entries (reclaim now keys entries).2 := by
  induction keys generalizing entries with
  | nil => exact .refl now entries
  | cons key keys ih => exact (removeIfExpired_reclaimed entries now key).trans (ih _)

/-- Neither does reclaiming several keys. -/
theorem live?_reclaim (now : Nat) (keys : List Bytes) (entries : Table Entry) (full : Bytes) :
    (reclaim now keys entries).2.live? now full = entries.live? now full :=
  (reclaim_reclaimed now keys entries).live? full

end Table

/-! ### Stores -/

namespace Store

theorem live?_eq (store : Store) (now : Nat) (key : Bytes) :
    store.live? now key = store.entries.live? now (store.options.fullKey key) := rfl

/-- Stores that differ in nothing but expired entries and their ledgers. -/
structure Alike (now : Nat) (store other : Store) : Prop where
  options : other.options = store.options
  isOpen : other.isOpen = store.isOpen
  live : ∀ full, other.entries.live? now full = store.entries.live? now full

variable {now : Nat} {store other third : Store}

theorem Alike.refl (now : Nat) (store : Store) : Alike now store store :=
  ⟨rfl, rfl, fun _ => rfl⟩

theorem Alike.trans (first : Alike now store other) (second : Alike now other third) :
    Alike now store third :=
  ⟨second.options.trans first.options, second.isOpen.trans first.isOpen,
    fun full => (second.live full).trans (first.live full)⟩

/-- Stores that are alike show the same under every logical key. -/
theorem Alike.live? (alike : Alike now store other) (key : Bytes) :
    other.live? now key = store.live? now key := by
  rw [live?_eq, live?_eq, alike.options, alike.live]

/-- A read sees what is live. -/
theorem readLive_fst (store : Store) (now : Nat) (full : Bytes) :
    (store.readLive now full).1 = (store.entries.live? now full).map Entry.value := by
  unfold readLive Table.live?
  cases store.entries.find? full with
  | none => rfl
  | some entry =>
      dsimp only
      cases expired : entry.isExpired now <;> simp [Option.filter_some, expired]

/-- What a read reclaims was not live. -/
theorem readLive_alike (store : Store) (now : Nat) (full : Bytes) :
    Alike now store (store.readLive now full).2 := by
  unfold readLive
  cases store.entries.find? full with
  | none => exact .refl now store
  | some entry =>
      dsimp only
      cases expired : entry.isExpired now with
      | false => exact .refl now store
      | true => exact ⟨rfl, rfl, Table.live?_removeIfExpired store.entries now full⟩

/-- A read takes nothing away but what is expired. -/
theorem readLive_reclaimed (store : Store) (now : Nat) (full : Bytes) :
    store.entries.Reclaimed now (store.readLive now full).2.entries := by
  unfold readLive
  split
  · exact .refl now store.entries
  · split
    · exact Table.removeIfExpired_reclaimed store.entries now full
    · exact .refl now store.entries

theorem read_fst (store : Store) (now : Nat) (key : Bytes) :
    (store.read now key).1 = (store.live? now key).map Entry.value := by
  rw [live?_eq, ← readLive_fst]
  unfold read
  cases read : store.readLive now (store.options.fullKey key) with
  | mk value store' => cases value <;> rfl

/-- Counting a read changes the ledger only. -/
theorem read_alike (store : Store) (now : Nat) (key : Bytes) :
    Alike now store (store.read now key).2 := by
  have alike := readLive_alike store now (store.options.fullKey key)
  unfold read
  cases read : store.readLive now (store.options.fullKey key) with
  | mk value store' =>
      rw [read] at alike
      cases value <;> exact ⟨alike.options, alike.isOpen, alike.live⟩

theorem read_entries (store : Store) (now : Nat) (key : Bytes) :
    (store.read now key).2.entries = (store.readLive now (store.options.fullKey key)).2.entries := by
  unfold read
  cases store.readLive now (store.options.fullKey key) with
  | mk value store' => cases value <;> rfl

/-- A batch of reads finds the live values, the last one first. -/
theorem readMany_fst (now : Nat) (keys : List Bytes) (found : Table Bytes) (store : Store) :
    (readMany now keys found store).1 =
      (keys.filterMap fun key => (store.live? now key).map fun entry => (key, entry.value)).foldl
        (fun table pair => table.insert pair.1 pair.2) found := by
  induction keys generalizing found store with
  | nil => rfl
  | cons key keys ih =>
      have value := read_fst store now key
      have alike := read_alike store now key
      rw [readMany, List.filterMap_cons]
      cases read : store.read now key with
      | mk read store' =>
          rw [read] at value alike
          -- What the other keys show is not changed by the read of this one.
          have same : (fun key => (store'.live? now key).map fun entry => (key, entry.value)) =
              fun key => (store.live? now key).map fun entry => (key, entry.value) := by
            funext key
            rw [alike.live?]
          cases here : store.live? now key with
          | none =>
              rw [here] at value
              cases value
              have rest := ih found store'
              rw [same] at rest
              exact rest
          | some entry =>
              rw [here] at value
              cases value
              have rest := ih (found.insert key entry.value) store'
              rw [same] at rest
              exact rest

/-- A batch of reads leaves a store that is alike. -/
theorem readMany_alike (now : Nat) (keys : List Bytes) (found : Table Bytes) (store : Store) :
    Alike now store (readMany now keys found store).2 := by
  induction keys generalizing found store with
  | nil => exact .refl now store
  | cons key keys ih =>
      have alike := read_alike store now key
      rw [readMany]
      cases read : store.read now key with
      | mk value store' =>
          rw [read] at alike
          cases value with
          | none => exact alike.trans (ih found store')
          | some value => exact alike.trans (ih (found.insert key value) store')

/-- A read answers with the live value. -/
theorem carryOut_get (store : Store) (now : Nat) (key : Bytes) :
    store.carryOut now (.get key) =
      (((store.live? now key).map Entry.value).elim (.error (.notFound key)) .ok,
        (store.read now key).2) := by
  rw [← read_fst, carryOut]
  cases store.read now key with
  | mk value store' => cases value <;> rfl

/-- The rest of a lifetime is that of the live entry, and asking for it changes nothing. -/
theorem carryOut_remaining (store : Store) (now : Nat) (key : Bytes) :
    store.carryOut now (.remaining key) =
      ((store.live? now key).elim (.error (.notFound key)) fun entry =>
        .ok ((entry.remaining now).map Duration.ofMillis), store) := by
  rw [carryOut]
  cases store.live? now key <;> rfl

/-- **A sweep is invisible.** -/
theorem sweep_alike (store : Store) (now : Nat) : Alike now store (store.sweep now) :=
  ⟨rfl, rfl, Table.live?_reclaim now (expiredKeys store.entries now) store.entries⟩

/-- Operations see the live entries with their expiry at its later reading. -/
theorem live?_later {later : Nat} (le : now ≤ later) (store : Store) (key : Bytes) :
    store.live? later key =
      (store.live? now key).filter fun entry => !entry.isExpired later :=
  Table.live?_later le store.entries (store.options.fullKey key)

/-- Stores that are alike stay alike while time passes. -/
theorem Alike.later {later : Nat} (alike : Alike now store other) (le : now ≤ later) :
    Alike later store other :=
  ⟨alike.options, alike.isOpen, fun full => by
    rw [Table.live?_later le, alike.live, ← Table.live?_later le]⟩

/-- Passes of a sweeper keep what each pass keeps. -/
theorem catchUp_induction {wall : Nat → Nat} {limit : Nat} {P : Store → Prop}
    (step : ∀ {store due}, due ≤ limit → P store → P (store.sweep (wall due))) (sweeper : Sweeper)
    {store : Store} (start : P store) : P (sweeper.catchUp wall limit store).2 := by
  have passes : ∀ fuel (sweeper : Sweeper) {store : Store}, P store →
      P (sweeper.passes wall limit fuel store).2 := by
    intro fuel
    induction fuel with
    | zero => exact fun _ _ start => start
    | succ fuel ih =>
        intro sweeper store start
        rw [Sweeper.passes]
        split
        next due =>
          rw [Bool.and_eq_true, decide_eq_true_eq] at due
          exact ih sweeper.next (step due.2 start)
        next => exact start
  exact passes _ sweeper start

/-- **Passes of a sweeper are invisible** behind the last of them. -/
theorem catchUp_alike {wall : Nat → Nat} {limit later : Nat}
    (before : ∀ {due}, due ≤ limit → wall due ≤ later) (sweeper : Sweeper) (store : Store) :
    Alike later store (sweeper.catchUp wall limit store).2 :=
  catchUp_induction (fun due alike => alike.trans ((sweep_alike _ _).later (before due))) sweeper
    (.refl later store)

/-! ### The shape of operations -/

/-- A new entry shows under its own key. -/
theorem live?_insert (store : Store) (now : Nat) (key other : Bytes) (entry : Entry)
    (ledger : Ledger) :
    Store.live? { store with
        entries := store.entries.insert (store.options.fullKey key) entry, ledger } now other =
      if other = key then (some entry).filter fun entry => !entry.isExpired now
      else store.live? now other := by
  rw [live?_eq, Table.live?_insert]
  simp only [Options.fullKey_inj]
  rfl

/-- A removal changes neither the options nor whether the store is open. -/
theorem remove_kept (store : Store) (key : Bytes) :
    (store.remove key).options = store.options ∧ (store.remove key).isOpen = store.isOpen := by
  unfold remove
  dsimp only
  split <;> exact ⟨rfl, rfl⟩

/-- A removal takes away what is filed under the full key. -/
theorem find?_remove (store : Store) (key full : Bytes) :
    (store.remove key).entries.find? full =
      if full = store.options.fullKey key then none else store.entries.find? full := by
  unfold remove
  dsimp only
  split
  next => exact Table.find?_erase _ _ _
  next absent =>
    split
    next same =>
      rw [same]
      simpa [Table.contains] using absent
    next => rfl

/-- Nothing shows under a key that was removed. -/
theorem live?_remove (store : Store) (now : Nat) (key other : Bytes) :
    (store.remove key).live? now other = if other = key then none else store.live? now other := by
  rw [live?_eq, Table.live?, (store.remove_kept key).1, find?_remove]
  simp only [Options.fullKey_inj]
  split <;> rfl

/-- A read that is answered has met an entry that has not expired. -/
theorem live_of_get {store : Store} {now : Nat} {standing : Standing} {key data : Bytes}
    (answered : (store.perform now standing (.get key)).1 = .ok data) :
    ∃ entry, store.entries.find? (store.options.fullKey key) = some entry ∧
      entry.isExpired now = false ∧ entry.value = data := by
  have carried : (store.carryOut now (.get key)).1 = .ok data := by
    unfold perform at answered
    rw [if_pos (show Operation.isData (.get key) = true from rfl)] at answered
    split at answered
    · cases answered
    · exact answered
  rw [carryOut_get] at carried
  cases live : store.live? now key with
  | none =>
      rw [live] at carried
      cases carried
  | some entry =>
      rw [live] at carried
      cases carried
      obtain ⟨found, fresh⟩ := Option.filter_eq_some_iff.mp live
      exact ⟨entry, found, by simpa using fresh, rfl⟩

/-- A write is refused and changes nothing, or it is done. -/
theorem perform_set (store : Store) (now : Nat) (standing : Standing) (key data : Bytes)
    (ttl : Duration) :
    (∃ failure, store.perform now standing (.set key data ttl) = (.error failure, store)) ∨
      store.perform now standing (.set key data ttl) = (.ok (), store.write now key data ttl) := by
  unfold perform
  rw [if_pos (show Operation.isData (.set key data ttl) = true from rfl)]
  cases store.refusal? standing with
  | some failure => exact .inl ⟨failure, rfl⟩
  | none => exact .inr rfl

/-- Counting fails and changes nothing, or puts an entry under the key. -/
theorem add_cases (store : Store) (now : Nat) (key : Bytes) (delta : Int) :
    (∃ reason, store.add now key delta = (.error (.invalidRequest reason), store)) ∨
      ∃ next entry, store.add now key delta = (.ok next,
        { store with entries := store.entries.insert (store.options.fullKey key) entry }) := by
  unfold add
  dsimp only
  split
  · exact .inl ⟨_, rfl⟩
  · split
    · exact .inr ⟨_, _, rfl⟩
    · exact .inl ⟨_, rfl⟩

/-- A conditional write leaves a live entry alone. -/
theorem carryOut_setIfAbsent (store : Store) (now : Nat) (key value : Bytes) (ttl : Duration) :
    store.carryOut now (.setIfAbsent key value ttl) =
      if (store.live? now key).isSome then (.ok false, store)
      else (.ok true, store.write now key value ttl) := by
  rw [carryOut, writeIfAbsent]
  cases (store.live? now key).isSome <;> rfl

/-- Why an operation cannot begin is never that a key is missing. -/
theorem isNotFound_of_refusal {standing : Standing} {failure : CacheError}
    (refusal : store.refusal? standing = some failure) : failure.isNotFound = false := by
  unfold refusal? at refusal
  split at refusal
  · cases standing with
    | live => cases refusal
    | canceled => cases refusal; rfl
    | pastDeadline => cases refusal; rfl
  · cases refusal; rfl

theorem isOpen_writeMany (now : Nat) (ttl : Duration) (pairs : List (Bytes × Bytes))
    (store : Store) : (writeMany now ttl pairs store).isOpen = store.isOpen := by
  induction pairs generalizing store with
  | nil => rfl
  | cons pair pairs ih => exact ih (store.write now pair.1 pair.2 ttl)

/-- Only closing closes. -/
theorem isOpen_carryOut (store : Store) (now : Nat) {op : Operation} (data : op.isData = true) :
    (store.carryOut now op).2.isOpen = store.isOpen := by
  have counted : ∀ key delta, (store.add now key delta).2.isOpen = store.isOpen := by
    intro key delta
    obtain ⟨_, failed⟩ | ⟨_, _, counted⟩ := store.add_cases now key delta
    · rw [failed]
    · rw [counted]
  cases op with
  | get key =>
      rw [carryOut_get]
      exact (read_alike store now key).isOpen
  | delete key =>
      show (store.remove key).isOpen = store.isOpen
      unfold remove
      dsimp only
      split <;> rfl
  | has key => exact (readLive_alike store now (store.options.fullKey key)).isOpen
  | close => cases data
  | increment key delta => exact counted key delta
  | decrement key delta => exact counted key (-delta)
  | setIfAbsent key value ttl =>
      rw [carryOut_setIfAbsent]
      split <;> rfl
  | getMany keys => exact (readMany_alike now keys .empty store).isOpen
  | setMany entries ttl => exact isOpen_writeMany now ttl entries.pairs store
  | remaining key => rw [carryOut_remaining]
  | set _ _ _ | flush | invalidate _ | stats => rfl

/-- A store that is open behind a call was open before it, and the call was no closing. -/
theorem isOpen_of_perform {now : Nat} {standing : Standing} {op : Operation}
    (isOpen : (store.perform now standing op).2.isOpen = true) :
    op.isData = true ∧ store.isOpen = true := by
  cases data : op.isData with
  | true =>
      unfold perform at isOpen
      rw [if_pos data] at isOpen
      cases refusal : store.refusal? standing with
      | none =>
          rw [refusal] at isOpen
          exact ⟨rfl, (store.isOpen_carryOut now data).symm.trans isOpen⟩
      | some failure =>
          rw [refusal] at isOpen
          exact ⟨rfl, isOpen⟩
  | false =>
      cases op with
      | close =>
          have shut : store.shut.isOpen = true := isOpen
          unfold Store.shut at shut
          split at shut
          next => cases shut
          next closed => exact absurd shut closed
      | _ => cases data

/-- A local backend as a machine. -/
def machine : Machine Store := ⟨Store.perform, Store.sweep⟩

/-- A store that is open behind a run was open all the time. -/
theorem isOpen_of_reach {events : List Event}
    (isOpen : (machine.reach now store events).2.isOpen = true) : store.isOpen = true := by
  induction events generalizing now store with
  | nil => exact isOpen
  | cons event events ih =>
      have behind := ih isOpen
      cases event with
      | call standing op => exact (isOpen_of_perform behind).2
      | advance millis => exact behind
      | sweep => exact behind

end Store

end TimedCache
