import TimedCache.Proofs.Store.Failure
import TimedCache.Proofs.Store.Ledger
import TimedCache.Proofs.Store.Refinement

/-!
# Conditional writes as locks

A conditional write that succeeds **takes** its key: until the entry that it has put there expires,
no other conditional write on the key succeeds.

**What breaks a lock.**  An operation *strikes* a key if it removes or overwrites what is there:
writes and deletions of the key, a flush, and an invalidation by a pattern that accepts it
(`Operation.strikes`).  Counting changes the value of a key but not its expiry; it breaks no lock.

**Steps.**  A call that does not strike a key leaves a live entry under it that expires when the old
one did (`Store.perform_locked`), and so do the passing of time, as long as the entry has not expired,
and sweeps.  So does a whole run (`Store.reach_locked`).

The expiry itself belongs to nobody: at that moment the lock is gone for those who read, sweep and
write alike.
-/

namespace TimedCache

/-! ### What breaks a lock -/

/-- Whether an operation removes or overwrites what a key has. -/
def Operation.strikes (key : Bytes) : Operation → Bool
  | .set other _ _ | .delete other => other = key
  | .setMany entries _ => entries.contains key
  | .flush => true
  | .invalidate pattern => Glob.accepts pattern key
  | _ => false

/-- Operations whose context has ended strike nothing. -/
def Event.strikes (key : Bytes) : Event → Bool
  | .call .live op => op.strikes key
  | _ => false

/-- Whether an event has changed the counter of a key. -/
def Stage.countsOn (key : Bytes) (stage : Stage Store) : Bool :=
  match stage.event with
  | .call standing op => (op.counts (stage.answer standing op)).contains key
  | _ => false

/-- An entry is expired as soon as the clock shows its expiry. -/
theorem Entry.isExpired_iff {entry : Entry} {now : Nat} :
    entry.isExpired now = true ↔ ∃ expires, entry.expiresAt = some expires ∧ expires ≤ now := by
  unfold isExpired
  cases entry.expiresAt <;> simp

/-- What has not expired later has not expired before. -/
theorem Entry.isExpired_of_later {entry : Entry} {now later : Nat} (le : now ≤ later)
    (live : entry.isExpired later = false) : entry.isExpired now = false :=
  Bool.eq_false_iff.mpr fun expired => by
    rw [isExpired_mono le expired] at live
    cases live

/-- Entries with the same expiry are expired at the same time. -/
theorem Entry.isExpired_congr {entry other : Entry} (same : other.expiresAt = entry.expiresAt)
    (now : Nat) : other.isExpired now = entry.isExpired now := by
  rw [isExpired, same, isExpired]

namespace Store

variable {now : Nat} {store : Store} {key : Bytes} {entry : Entry}

/-! ### What writes show -/

theorem live?_write_self (store : Store) (value : Bytes) (ttl : Duration)
    (live : (store.newEntry now value ttl).isExpired now = false) :
    (store.write now key value ttl).live? now key = some (store.newEntry now value ttl) := by
  refine (store.live?_insert now key key _ _).trans ((if_pos rfl).trans ?_)
  rw [Option.filter_some, live]
  rfl

theorem live?_write_of_ne {other : Bytes} (ne : key ≠ other) (store : Store) (now : Nat)
    (value : Bytes) (ttl : Duration) :
    (store.write now other value ttl).live? now key = store.live? now key :=
  (store.live?_insert now other key _ _).trans (if_neg ne)

theorem live?_writeMany_of_not_mem (now : Nat) (ttl : Duration) {pairs : List (Bytes × Bytes)}
    (absent : key ∉ pairs.map Prod.fst) (store : Store) :
    (writeMany now ttl pairs store).live? now key = store.live? now key := by
  induction pairs generalizing store with
  | nil => rfl
  | cons pair pairs ih =>
      have ne : key ≠ pair.1 := fun same => absent (same ▸ List.mem_cons_self)
      have rest : key ∉ pairs.map Prod.fst := fun mem => absent (List.mem_cons_of_mem _ mem)
      exact (ih rest (store.write now pair.1 pair.2 ttl)).trans (live?_write_of_ne ne store now _ _)

theorem live?_remove_of_ne {other : Bytes} (ne : key ≠ other) (store : Store) (now : Nat) :
    (store.remove other).live? now key = store.live? now key := by
  unfold remove
  dsimp only
  split
  · rw [live?_eq, Table.live?_erase, if_neg fun same => ne (store.options.fullKey_inj.mp same)]
    rfl
  · rfl

/-! ### What keeps a lock -/

/-- What is live has not expired. -/
theorem isExpired_of_live? (held : store.live? now key = some entry) :
    entry.isExpired now = false := by
  simpa using (Option.filter_eq_some_iff.mp held).2

/-- A key has a live entry with the same expiry as an old one; and it is the old one itself, if nothing
has counted on the key. -/
def Locked (store : Store) (now : Nat) (key : Bytes) (old : Entry) (uncounted : Prop) : Prop :=
  ∃ entry, store.live? now key = some entry ∧ entry.expiresAt = old.expiresAt ∧
    (uncounted → entry = old)

theorem Locked.of_same {uncounted : Prop} {after : Store} (held : store.live? now key = some entry)
    (same : after.live? now key = store.live? now key) : Locked after now key entry uncounted :=
  ⟨entry, same.trans held, rfl, fun _ => rfl⟩

theorem Locked.mono {uncounted other : Prop} (locked : Locked store now key entry uncounted)
    (weaker : other → uncounted) : Locked store now key entry other := by
  obtain ⟨last, held, expiry, same⟩ := locked
  exact ⟨last, held, expiry, fun holds => same (weaker holds)⟩

/-- Counting keeps the lock of a key.  The value changes only if it is the counter of the key, and the
addition succeeds. -/
theorem add_locked (held : store.live? now key = some entry) (other : Bytes) (delta : Int) :
    Locked (store.add now other delta).2 now key entry
      ¬(other = key ∧ ∃ next, (store.add now other delta).1 = .ok next) := by
  by_cases same : other = key
  · subst same
    unfold add
    rw [held, Option.getD_some]
    dsimp only
    cases readInt64? entry.value with
    | none => exact .of_same held rfl
    | some current =>
        dsimp only
        split
        · -- The sum has the expiry of what it replaces, and so it is live.
          refine ⟨{ entry with value := intText (current + delta) }, ?_, rfl,
            fun uncounted => absurd ⟨rfl, _, rfl⟩ uncounted⟩
          refine (store.live?_insert now other other _ _).trans ((if_pos rfl).trans ?_)
          have unexpired : entry.isExpired now = false := isExpired_of_live? held
          have live : Entry.isExpired { entry with value := intText (current + delta) } now = false :=
            unexpired
          rw [Option.filter_some, live]
          rfl
        · exact .of_same held rfl
  · obtain ⟨_, failed⟩ | ⟨_, counter, counted⟩ := store.add_cases now other delta
    · rw [failed]
      exact .of_same held rfl
    · rw [counted]
      have ne : key ≠ other := fun eq => same eq.symm
      exact .of_same held ((store.live?_insert now other key counter _).trans (if_neg ne))

/-- **An operation that does not strike a key** keeps its lock. -/
theorem carryOut_locked {op : Operation} (held : store.live? now key = some entry)
    (spares : op.strikes key = false) (data : op.isData = true) :
    Locked (store.carryOut now op).2 now key entry
      ((op.counts (store.carryOut now op).1).contains key = false) := by
  cases op with
  | get other =>
      rw [carryOut_get]
      exact .of_same held ((store.read_alike now other).live? key)
  | set other value ttl =>
      have ne : key ≠ other := fun same => of_decide_eq_false spares same.symm
      exact .of_same held (live?_write_of_ne ne store now value ttl)
  | delete other =>
      have ne : key ≠ other := fun same => of_decide_eq_false spares same.symm
      exact .of_same held (live?_remove_of_ne ne store now)
  | has other =>
      exact .of_same held ((store.readLive_alike now (store.options.fullKey other)).live? key)
  | flush => cases spares
  | invalidate pattern =>
      refine .of_same held ((store.live?_removeAll (Glob.accepts pattern) now key).trans ?_)
      exact if_neg (Bool.eq_false_iff.mp spares)
  | close => cases data
  | increment other delta =>
      refine (add_locked held other delta).mono ?_
      rintro uncounted ⟨rfl, next, counted⟩
      have counts : Operation.counts (.increment other delta)
          (store.carryOut now (.increment other delta)).1 = [other] :=
        congrArg (Operation.counts (.increment other delta)) counted
      simp [counts] at uncounted
  | decrement other delta =>
      refine (add_locked held other (-delta)).mono ?_
      rintro uncounted ⟨rfl, next, counted⟩
      have counts : Operation.counts (.decrement other delta)
          (store.carryOut now (.decrement other delta)).1 = [other] :=
        congrArg (Operation.counts (.decrement other delta)) counted
      simp [counts] at uncounted
  | setIfAbsent other value ttl =>
      rw [carryOut_setIfAbsent]
      cases taken : store.live? now other with
      | some _ => exact .of_same held rfl
      | none =>
          -- The key of the lock has a live entry, so this is another key.
          have ne : key ≠ other := by
            rintro rfl
            rw [held] at taken
            cases taken
          exact .of_same held (live?_write_of_ne ne store now value ttl)
  | getMany keys => exact .of_same held ((readMany_alike now keys .empty store).live? key)
  | setMany entries ttl =>
      have absent : key ∉ entries.pairs.map Prod.fst := by
        intro mem
        have there := Table.mem_keys_iff.mp mem
        exact absurd (there.symm.trans spares) (Bool.noConfusion)
      exact .of_same held (live?_writeMany_of_not_mem now ttl absent store)
  | stats => exact .of_same held rfl
  | remaining other =>
      rw [carryOut_remaining]
      exact .of_same held rfl

/-- **A call that does not strike a key** keeps its lock, if it leaves the store open. -/
theorem perform_locked {standing : Standing} {op : Operation}
    (held : store.live? now key = some entry)
    (spares : Event.strikes key (.call standing op) = false)
    (isOpen : (store.perform now standing op).2.isOpen = true) :
    Locked (store.perform now standing op).2 now key entry
      ((op.counts (store.perform now standing op).1).contains key = false) := by
  obtain ⟨data, before⟩ := isOpen_of_perform isOpen
  cases standing with
  | live =>
      rw [perform_of_open before]
      exact carryOut_locked held spares data
  | canceled =>
      have refusal : store.refusal? .canceled = some .canceled := by
        rw [refusal?, before]
        rfl
      rw [perform_of_refusal refusal data]
      exact .of_same held rfl
  | pastDeadline =>
      have refusal : store.refusal? .pastDeadline = some .deadlineExceeded := by
        rw [refusal?, before]
        rfl
      rw [perform_of_refusal refusal data]
      exact .of_same held rfl

/-- **A lock outlasts every run** that does not strike its key, until it expires. -/
theorem reach_locked {events : List Event} (held : store.live? now key = some entry)
    (spared : ∀ event ∈ events, event.strikes key = false)
    (isOpen : (machine.reach now store events).2.isOpen = true)
    (live : entry.isExpired (machine.reach now store events).1 = false) :
    Locked (machine.reach now store events).2 (machine.reach now store events).1 key entry
      (∀ stage ∈ machine.history now store events, stage.countsOn key = false) := by
  induction events generalizing now store entry with
  | nil => exact .of_same held rfl
  | cons event events ih =>
      obtain ⟨spares, others⟩ := List.forall_mem_cons.mp spared
      cases event with
      | call standing op =>
          obtain ⟨between, held', expiry, same⟩ :=
            perform_locked held spares (isOpen_of_reach isOpen)
          obtain ⟨last, held'', expiry', same'⟩ :=
            ih held' others isOpen ((Entry.isExpired_congr expiry _).trans live)
          refine ⟨last, held'', expiry'.trans expiry, fun uncounted => ?_⟩
          obtain ⟨first, rest⟩ := List.forall_mem_cons.mp uncounted
          exact (same' rest).trans (same first)
      | advance millis =>
          -- What has not expired at the end has not expired on the way.
          have there : entry.isExpired (now + millis) = false :=
            Entry.isExpired_of_later (machine.le_reach _ store events) live
          have held' : store.live? (now + millis) key = some entry := by
            rw [live?_later (Nat.le_add_right now millis), held, Option.filter_some, there]
            rfl
          exact (ih held' others isOpen live).mono fun uncounted =>
            (List.forall_mem_cons.mp uncounted).2
      | sweep =>
          have held' := ((store.sweep_alike now).live? key).trans held
          exact (ih held' others isOpen live).mono fun uncounted =>
            (List.forall_mem_cons.mp uncounted).2

/-! ### Locks -/

/-- A conditional write that succeeds meets an open store in which the key is free, and it writes. -/
theorem perform_setIfAbsent_of_ok {standing : Standing} {value : Bytes} {ttl : Duration}
    (won : (store.perform now standing (.setIfAbsent key value ttl)).1 = .ok true) :
    store.isOpen = true ∧ store.live? now key = none ∧
      (store.perform now standing (.setIfAbsent key value ttl)).2 = store.write now key value ttl := by
  unfold perform at won ⊢
  rw [if_pos (show Operation.isData (.setIfAbsent key value ttl) = true from rfl)] at won ⊢
  cases refusal : store.refusal? standing with
  | some failure =>
      rw [refusal] at won
      cases won
  | none =>
      rw [refusal] at won
      dsimp only at won ⊢
      rw [carryOut_setIfAbsent] at won ⊢
      cases free : store.live? now key with
      | some entry =>
          rw [free] at won
          cases won
      | none =>
          refine ⟨?_, rfl, rfl⟩
          unfold refusal? at refusal
          split at refusal
          next isOpen => exact isOpen
          next => cases refusal

/-- **Conditional writes are locks.**  After a conditional write has taken a key, and as long as
nothing strikes the key, no other one takes it before the expiry of the first, and all see that it is
taken. -/
theorem setIfAbsent_locks {standing : Standing} {value : Bytes} {ttl : Duration}
    {between : List Event}
    (won : (store.perform now standing (.setIfAbsent key value ttl)).1 = .ok true)
    (spared : ∀ event ∈ between, event.strikes key = false) :
    let entry := store.newEntry now value ttl
    let taken := (store.perform now standing (.setIfAbsent key value ttl)).2
    let later := (machine.reach now taken between).1
    let held := (machine.reach now taken between).2
    (∀ standing' value' ttl',
        (held.perform later standing' (.setIfAbsent key value' ttl')).1 = .ok true →
      ∃ expires, entry.expiresAt = some expires ∧ expires ≤ later) ∧
    (held.isOpen = true → (∀ expires, entry.expiresAt = some expires → later < expires) →
      (∀ value' ttl', held.perform later .live (.setIfAbsent key value' ttl') = (.ok false, held)) ∧
      ∃ current, (held.perform later .live (.get key)).1 = .ok current ∧
        ((∀ stage ∈ machine.history now taken between, stage.countsOn key = false) →
          current = value)) := by
  intro entry taken later held
  have written : taken = store.write now key value ttl := (perform_setIfAbsent_of_ok won).2.2
  have keeps (isOpen : held.isOpen = true) (live : entry.isExpired later = false) :
      Locked held later key entry
        (∀ stage ∈ machine.history now taken between, stage.countsOn key = false) := by
    have first : entry.isExpired now = false :=
      Entry.isExpired_of_later (machine.le_reach now taken between) live
    have start : taken.live? now key = some entry := by
      rw [written]
      exact live?_write_self store value ttl first
    exact reach_locked start spared isOpen live
  constructor
  · intro standing' value' ttl' again
    obtain ⟨isOpen, free, -⟩ := perform_setIfAbsent_of_ok again
    cases expired : entry.isExpired later with
    | true => exact Entry.isExpired_iff.mp expired
    | false =>
        obtain ⟨_, there, -⟩ := keeps isOpen expired
        rw [free] at there
        cases there
  · intro isOpen ahead
    have live : entry.isExpired later = false := by
      refine Bool.eq_false_iff.mpr fun expired => ?_
      obtain ⟨expires, ends, passed⟩ := Entry.isExpired_iff.mp expired
      exact Nat.not_le_of_lt (ahead expires ends) passed
    obtain ⟨current, there, -, same⟩ := keeps isOpen live
    refine ⟨fun value' ttl' => ?_, current.value, ?_, fun uncounted => ?_⟩
    · rw [perform_of_open isOpen, carryOut_setIfAbsent, there]
      rfl
    · rw [perform_of_open isOpen, carryOut_get, there]
      rfl
    · rw [same uncounted]
      rfl

/-- What happens to a lock of ten milliseconds before it expires: another client tries to take it, and
a third one to count on it and, too late, to release it. -/
def contest : List Event :=
  [.call .live (.setIfAbsent (utf8 "lock") (utf8 "B") (.ofMillis 10)),
    .call .live (.increment (utf8 "lock") 1),
    .call .pastDeadline (.delete (utf8 "lock")),
    .call .live (.delete (utf8 "door")),
    .advance 9,
    .sweep]

/-- The lock is held until the clock shows its expiry, and at that moment it can be taken. -/
theorem setIfAbsent_locks_contest :
    let taken := ((Store.fresh .standard).perform 0 .live
      (.setIfAbsent (utf8 "lock") (utf8 "A") (.ofMillis 10))).2
    let before := machine.reach 0 taken contest
    let behind := machine.reach 0 taken (contest ++ [.advance 1])
    before.1 = 9 ∧ behind.1 = 10 ∧
      (∀ value ttl, before.2.perform before.1 .live (.setIfAbsent (utf8 "lock") value ttl) =
        (.ok false, before.2)) ∧
      (before.2.perform before.1 .live (.get (utf8 "lock"))).1 = .ok (utf8 "A") ∧
      ∃ expires, ((Store.fresh .standard).newEntry 0 (utf8 "A") (.ofMillis 10)).expiresAt =
        some expires ∧ expires ≤ behind.1 := by
  intro taken before behind
  have won : ((Store.fresh .standard).perform 0 .live
      (.setIfAbsent (utf8 "lock") (utf8 "A") (.ofMillis 10))).1 = .ok true := by decide +kernel
  have spared : ∀ event ∈ contest ++ [.advance 1], event.strikes (utf8 "lock") = false := by
    decide +kernel
  have early : before.1 = 9 := by decide +kernel
  have late : behind.1 = 10 := by decide +kernel
  obtain ⟨-, holds⟩ := setIfAbsent_locks won
    fun event mem => spared event (List.mem_append_left [.advance 1] mem)
  obtain ⟨lost, current, shown, same⟩ := holds (by decide +kernel) (by decide +kernel)
  obtain rfl := same (by decide +kernel)
  obtain ⟨expired, -⟩ := setIfAbsent_locks won spared
  exact ⟨early, late, lost, shown, expired .live (utf8 "B") (.ofMillis 10) (by decide +kernel)⟩

end Store

end TimedCache
