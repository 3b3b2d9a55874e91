import TimedCache.Proofs.Lifetime
import TimedCache.Proofs.Store.Batch
import TimedCache.Proofs.Store.Lock

/-!
# Reading one's own writes

Who has just written a value may expect to read it, as long as the clock has not moved.  There are three
ways to write a value (`Operation.Wrote`) and four ways to look for it, and they all agree: either every
look finds the value (`Store.Finds`), or every look misses the key (`Store.Misses`).

**Which of the two it is** depends on the lifetime alone.  An entry is gone as soon as the clock shows its
expiry, and of a lifetime only the whole milliseconds count.  So what is written for less than a
millisecond is gone before it can be read, and so is what is written for a multiple of `2 ^ 64`
milliseconds, of which nothing is left (`Options.lasts`).  A server, in contrast, is told at least one
millisecond.
-/

namespace TimedCache

/-! ### What lasts -/

/-- Whether something that is written now is still there at the same reading of the clock.  Behind the
last reading there is none at which anything could expire. -/
def Options.lasts (options : Options) (now : Nat) (ttl : Duration) : Bool :=
  (options.lifetime ttl).all fun span =>
    decide (span.wholeMillis % word64 ≠ 0 ∧ now + 1 < word64)

theorem Entry.isExpired_write_self (options : Options) (now : Nat) (value : Bytes) (ttl : Duration) :
    (Entry.write now value (options.lifetime ttl)).isExpired now = !options.lasts now ttl := by
  unfold Options.lasts
  cases options.lifetime ttl with
  | none => rfl
  | some span =>
      have ends : now < Entry.expiry now span ↔
          span.wholeMillis % word64 ≠ 0 ∧ now + 1 < word64 := by
        rw [Duration.expiry_eq_min]
        omega
      rw [Option.all_some, ← decide_not]
      exact Bool.eq_iff_iff.mpr (by
        rw [← Bool.not_eq_false, Duration.isExpired_write_iff, ends, decide_eq_true_eq])

/-- On a server, whatever is written for some time is written for a millisecond at least. -/
theorem Remote.Client.lifetimeMillis_pos {options : Options} {ttl : Duration} {millis : Nat}
    (sent : lifetimeMillis options ttl = some millis) : 0 < millis := by
  obtain ⟨span, -, rfl⟩ := Option.map_eq_some_iff.mp sent
  exact Nat.le_max_right _ 1

/-! ### Writing and looking -/

/-- An operation has written a value under a key, as its answer tells. -/
inductive Operation.Wrote (key value : Bytes) (ttl : Duration) : (op : Operation) → op.Answer → Prop
  | set : Wrote key value ttl (.set key value ttl) (.ok ())
  | setIfAbsent : Wrote key value ttl (.setIfAbsent key value ttl) (.ok true)
  | setMany {entries : Table Bytes} (among : entries.find? key = some value) :
      Wrote key value ttl (.setMany entries ttl) (.ok ())

namespace Store

/-- Every look at a key finds a value. -/
structure Finds (store : Store) (now : Nat) (key value : Bytes) : Prop where
  get : (store.perform now .live (.get key)).1 = .ok value
  has : (store.perform now .live (.has key)).1 = .ok true
  getMany : ∀ keys, key ∈ keys → ∃ found,
    (store.perform now .live (.getMany keys)).1 = .ok found ∧ found.find? key = some value
  remaining : ∃ left, (store.perform now .live (.remaining key)).1 = .ok left

/-- Every look at a key misses it. -/
structure Misses (store : Store) (now : Nat) (key : Bytes) : Prop where
  get : (store.perform now .live (.get key)).1 = .error (.notFound key)
  has : (store.perform now .live (.has key)).1 = .ok false
  getMany : ∀ keys, ∃ found,
    (store.perform now .live (.getMany keys)).1 = .ok found ∧ found.find? key = none
  remaining : (store.perform now .live (.remaining key)).1 = .error (.notFound key)

variable {now : Nat} {store : Store} {key value : Bytes} {ttl : Duration}

/-- Whether a key is there is answered by what is live. -/
theorem perform_has (isOpen : store.isOpen = true) :
    (store.perform now .live (.has key)).1 = .ok (store.live? now key).isSome := by
  rw [perform_of_open isOpen]
  show Except.ok (store.readLive now (store.options.fullKey key)).1.isSome = _
  rw [readLive_fst, ← live?_eq, Option.isSome_map]

theorem finds_of_live? (isOpen : store.isOpen = true) {entry : Entry}
    (live : store.live? now key = some entry) : store.Finds now key entry.value where
  get := by rw [perform_of_open isOpen, carryOut_get, live]; rfl
  has := by rw [perform_has isOpen, live]; rfl
  getMany := by
    intro keys mem
    obtain ⟨found, answered, finds⟩ := perform_getMany isOpen now keys
    refine ⟨found, answered, ?_⟩
    rw [finds, if_pos mem, live]
    rfl
  remaining := by
    rw [perform_of_open isOpen, carryOut, live]
    exact ⟨_, rfl⟩

theorem misses_of_live? (isOpen : store.isOpen = true) (live : store.live? now key = none) :
    store.Misses now key where
  get := by rw [perform_of_open isOpen, carryOut_get, live]; rfl
  has := by rw [perform_has isOpen, live]; rfl
  getMany := by
    intro keys
    obtain ⟨found, answered, finds⟩ := perform_getMany isOpen now keys
    refine ⟨found, answered, ?_⟩
    rw [finds, live]
    exact ite_self none
  remaining := by rw [perform_of_open isOpen, carryOut, live]

/-! ### One's own writes -/

/-- In whichever way a value was written, the store holds the entry that is made of it now. -/
theorem find?_of_wrote {standing : Standing} {op : Operation}
    (wrote : op.Wrote key value ttl (store.perform now standing op).1) :
    let after := (store.perform now standing op).2
    after.isOpen = true ∧ after.options = store.options ∧
      after.entries.find? (store.options.fullKey key) = some (store.newEntry now value ttl) := by
  intro after
  have written : (store.write now key value ttl).entries.find? (store.options.fullKey key) =
      some (store.newEntry now value ttl) :=
    (Table.find?_insert _ _ _ _).trans (if_pos rfl)
  generalize answered : (store.perform now standing op).1 = answer at wrote
  cases wrote with
  | set =>
      obtain ⟨isOpen, carried⟩ := perform_of_ok rfl answered
      have after_eq : after = store.write now key value ttl := congrArg Prod.snd carried
      rw [after_eq]
      exact ⟨isOpen, rfl, written⟩
  | setIfAbsent =>
      obtain ⟨isOpen, -, after_eq⟩ := perform_setIfAbsent_of_ok answered
      rw [show after = store.write now key value ttl from after_eq]
      exact ⟨isOpen, rfl, written⟩
  | @setMany entries among =>
      obtain ⟨isOpen, carried⟩ := perform_of_ok rfl answered
      have after_eq : after = writeMany now ttl entries.pairs store := congrArg Prod.snd carried
      obtain ⟨options, isOpen', -⟩ := writeMany_kept now ttl entries.pairs store
      rw [after_eq]
      exact ⟨isOpen'.trans isOpen, options,
        find?_writeMany_of_mem entries.distinct (Table.find?_eq_some_iff.mp among)⟩

/-- **Who has written reads what was written**, exactly if the lifetime has a whole millisecond in its last
64 bits, or there is none.  Otherwise every look at the key misses it, although the write has succeeded; a
server is told at least one millisecond in this case, too. -/
theorem finds_own_write {standing : Standing} {op : Operation}
    (wrote : op.Wrote key value ttl (store.perform now standing op).1) :
    let after := (store.perform now standing op).2
    (store.options.lasts now ttl = true → after.Finds now key value) ∧
      (store.options.lasts now ttl = false → after.Misses now key) ∧
      ∀ millis, Remote.Client.lifetimeMillis store.options ttl = some millis → 0 < millis := by
  intro after
  obtain ⟨isOpen, options, filed⟩ := find?_of_wrote wrote
  have live : after.live? now key =
      if store.options.lasts now ttl then some (store.newEntry now value ttl) else none := by
    rw [live?, options, filed, Option.filter_some, newEntry, Entry.isExpired_write_self, Bool.not_not]
  refine ⟨fun lasts => ?_, fun gone => ?_, fun _ => Remote.Client.lifetimeMillis_pos⟩
  · rw [lasts] at live
    exact finds_of_live? isOpen live
  · rw [gone] at live
    exact misses_of_live? isOpen live

/-- Over an entry that has expired, a conditional write for a millisecond and a half is read. -/
theorem finds_own_write_halfExpired :
    let write := Operation.setIfAbsent (utf8 "a") (utf8 "9") (.ofMicros 1500)
    (halfExpired.perform 12 .live write).1 = .ok true ∧
      (halfExpired.perform 12 .live write).2.Finds 12 (utf8 "a") (utf8 "9") := by
  intro write
  have won : (halfExpired.perform 12 .live write).1 = .ok true := by decide +kernel
  have wrote : write.Wrote (utf8 "a") (utf8 "9") (.ofMicros 1500)
      (halfExpired.perform 12 .live write).1 := won ▸ .setIfAbsent
  exact ⟨won, (finds_own_write wrote).1 (by decide +kernel)⟩

/-- What is written for 999 microseconds, in any of the three ways, is missed at once.  A server is told a
millisecond. -/
theorem own_write_lost :
    let ttl := Duration.ofMicros 999
    let written := (fresh .standard).perform 1700000000000 .live (.set (utf8 "k") (utf8 "v") ttl)
    let taken := (fresh .standard).perform 1700000000000 .live
      (.setIfAbsent (utf8 "k") (utf8 "v") ttl)
    let batch := (fresh .standard).perform 1700000000000 .live
      (.setMany (.ofList [(utf8 "k", utf8 "v")]) ttl)
    (written.1 = .ok () ∧ taken.1 = .ok true ∧ batch.1 = .ok ()) ∧
      ((written.2.perform 1700000000000 .live (.get (utf8 "k"))).1 = .error (.notFound (utf8 "k")) ∧
        (taken.2.perform 1700000000000 .live (.get (utf8 "k"))).1 = .error (.notFound (utf8 "k")) ∧
        (batch.2.perform 1700000000000 .live (.get (utf8 "k"))).1 =
          .error (.notFound (utf8 "k"))) ∧
      ((written.2.perform 1700000000000 .live (.has (utf8 "k"))).1 = .ok false ∧
        (taken.2.perform 1700000000000 .live (.has (utf8 "k"))).1 = .ok false ∧
        (batch.2.perform 1700000000000 .live (.has (utf8 "k"))).1 = .ok false) ∧
      Remote.Client.lifetimeMillis .standard ttl = some 1 := by
  decide +kernel

end Store

end TimedCache
