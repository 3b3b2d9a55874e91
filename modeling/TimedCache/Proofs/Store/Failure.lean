import TimedCache.Proofs.Store.Live
import TimedCache.Proofs.Table

/-!
# Failures and closing

An operation fails in one of two ways.

**Before it begins**, because the store is closed, or the context of the caller is cancelled, or
its deadline is reached, in this order of precedence.  Then nothing whatsoever changes.

**Once it has begun**, because a key has no live entry, or because an entry is not a counter that
can take the addition (`Store.FailsWith`).  Then no entry changes, except that expired ones may have
been reclaimed (`Table.Reclaimed`).

**Counting** is defined as one decision that comes before the write.  It may as well take the slot
of the key first, put a new counter into it if it has no live entry, and then read, add and write back
(`Store.addInSlot`): a new counter takes every addition, so no half-done slot is left behind.

**Closing is final.**  A store that is closed is empty (`Store.Settled`), and nothing that happens
afterwards changes it at all (`Store.reach_shut`).

## Main Definitions

* `Store.FailsWith` — the failures of operations that have begun
* `Store.addInSlot` — counting in the slot of a key
* `Store.FailsCleanly` — what failures and closing do to a store
-/

namespace TimedCache

/-! ### Standing -/

namespace TokenForest

/-- Cancellation is reported first. -/
theorem standing_of_cancelled {forest : TokenForest} {context : Context}
    (cancelled : forest.hasCancelled context = true) (clock : Nat) :
    forest.standing clock context = .canceled := by
  rw [standing, if_pos cancelled]

/-- A deadline is reached as soon as the clock shows it. -/
theorem standing_of_deadline {forest : TokenForest} {context : Context} {clock deadline : Nat}
    (uncancelled : forest.hasCancelled context = false) (ends : context.deadline = some deadline)
    (reached : deadline ≤ clock) : forest.standing clock context = .pastDeadline := by
  rw [standing, uncancelled, if_neg Bool.false_ne_true, ends]
  exact if_pos reached

theorem standing_of_ahead {forest : TokenForest} {context : Context} {clock : Nat}
    (uncancelled : forest.hasCancelled context = false)
    (ahead : ∀ deadline, context.deadline = some deadline → clock < deadline) :
    forest.standing clock context = .live := by
  rw [standing, uncancelled, if_neg Bool.false_ne_true]
  cases ends : context.deadline with
  | none => rfl
  | some deadline => exact if_neg (Nat.not_le_of_lt (ahead deadline ends))

end TokenForest

namespace Store

variable {now : Nat} {store : Store} {op : Operation}

/-! ### Before an operation begins -/

theorem perform_of_refusal {standing : Standing} {failure : CacheError}
    (refusal : store.refusal? standing = some failure) (data : op.isData = true) :
    store.perform now standing op = (.error failure, store) := by
  rw [perform, if_pos data, refusal]

theorem perform_of_closed (closed : store.isOpen = false) (now : Nat) (standing : Standing)
    (data : op.isData = true) : store.perform now standing op = (.error .closed, store) :=
  perform_of_refusal (by rw [refusal?, closed]; rfl) data

theorem perform_of_open (isOpen : store.isOpen = true) (now : Nat) (op : Operation) :
    store.perform now .live op = store.carryOut now op := by
  rw [perform, refusal?, isOpen]
  cases op.isData <;> rfl

/-- Data operations succeed on open stores only. -/
theorem perform_of_ok {standing : Standing} {result : op.Value}
    (data : op.isData = true) (answered : (store.perform now standing op).1 = .ok result) :
    store.isOpen = true ∧ store.perform now standing op = store.carryOut now op := by
  rw [perform, if_pos data] at answered ⊢
  cases refusal : store.refusal? standing with
  | some failure =>
      rw [refusal] at answered
      cases answered
  | none =>
      refine ⟨?_, rfl⟩
      unfold refusal? at refusal
      split at refusal
      next isOpen => exact isOpen
      next => cases refusal

/-! ### Once it has begun -/

/-- What the counter of a key reads when something is to be added to it. -/
def counterValue (store : Store) (now : Nat) (key : Bytes) : Bytes :=
  ((store.live? now key).getD (freshCounter now)).value

/-- The failure of an addition to the counter of a key. -/
def AddFailsWith (store : Store) (now : Nat) (key : Bytes) (delta : Int) (failure : CacheError) :
    Prop :=
  (readInt64? (store.counterValue now key) = none ∧
      failure = .invalidRequest (utf8 "value at '" ++ key ++ utf8 "' is not an integer")) ∨
    ∃ current, readInt64? (store.counterValue now key) = some current ∧
      fitsInt64 (current + delta) = false ∧
      failure = .invalidRequest (utf8 "increment of '" ++ key ++ utf8 "' would overflow")

/-- The failures of operations that have begun. -/
def FailsWith (store : Store) (now : Nat) : Operation → CacheError → Prop
  | .get key, failure | .remaining key, failure =>
    store.live? now key = none ∧ failure = .notFound key
  | .increment key delta, failure => store.AddFailsWith now key delta failure
  | .decrement key delta, failure => store.AddFailsWith now key (-delta) failure
  | _, _ => False

/-- An addition that fails changes nothing. -/
theorem add_fails_iff (store : Store) (now : Nat) (key : Bytes) (delta : Int)
    (failure : CacheError) :
    store.add now key delta = (.error failure, store) ↔
      store.AddFailsWith now key delta failure := by
  unfold add AddFailsWith counterValue
  dsimp only
  cases readInt64? ((store.live? now key).getD (freshCounter now)).value with
  | none =>
      constructor
      · intro failed
        exact .inl ⟨rfl, (Except.error.inj (congrArg Prod.fst failed)).symm⟩
      · rintro (⟨-, rfl⟩ | ⟨_, found, -⟩)
        · rfl
        · cases found
  | some current =>
      dsimp only
      cases fits : fitsInt64 (current + delta) with
      | true =>
          constructor
          · intro failed
            cases congrArg Prod.fst failed
          · rintro (⟨none_, -⟩ | ⟨_, found, beyond, -⟩)
            · cases none_
            · cases found
              rw [fits] at beyond
              cases beyond
      | false =>
          rw [if_neg Bool.false_ne_true]
          constructor
          · intro failed
            exact .inr ⟨current, rfl, fits, (Except.error.inj (congrArg Prod.fst failed)).symm⟩
          · rintro (⟨none_, -⟩ | ⟨_, -, -, rfl⟩)
            · cases none_
            · rfl

theorem add_of_error {key : Bytes} {delta : Int} {failure : CacheError}
    (failed : (store.add now key delta).1 = .error failure) :
    store.add now key delta = (.error failure, store) := by
  obtain ⟨reason, whole⟩ | ⟨next, entry, counted⟩ := store.add_cases now key delta
  · rw [whole] at failed ⊢
    exact congrArg (·, store) failed
  · rw [counted] at failed
    cases failed

/-- **A failure changes no live entry**, and it has one of the reasons that there are. -/
theorem carryOut_of_error {failure : CacheError}
    (failed : (store.carryOut now op).1 = .error failure) :
    store.FailsWith now op failure ∧ Alike now store (store.carryOut now op).2 ∧
      store.entries.Reclaimed now (store.carryOut now op).2.entries := by
  have counting : ∀ key delta, (store.add now key delta).1 = .error failure →
      store.AddFailsWith now key delta failure ∧ Alike now store (store.add now key delta).2 ∧
        store.entries.Reclaimed now (store.add now key delta).2.entries := by
    intro key delta failed
    have whole := add_of_error failed
    have fails := (store.add_fails_iff now key delta failure).mp whole
    rw [whole]
    exact ⟨fails, .refl now store, .refl now store.entries⟩
  cases op with
  | get key =>
      rw [carryOut_get] at failed ⊢
      cases live : store.live? now key with
      | none =>
          rw [live] at failed
          refine ⟨⟨live, (Except.error.inj failed).symm⟩, read_alike store now key, ?_⟩
          show store.entries.Reclaimed now (store.read now key).2.entries
          rw [read_entries]
          exact store.readLive_reclaimed now (store.options.fullKey key)
      | some entry =>
          rw [live] at failed
          cases failed
  | remaining key =>
      rw [carryOut_remaining] at failed ⊢
      cases live : store.live? now key with
      | none =>
          rw [live] at failed
          exact ⟨⟨live, (Except.error.inj failed).symm⟩, .refl now store, .refl now store.entries⟩
      | some entry =>
          rw [live] at failed
          cases failed
  | increment key delta => exact counting key delta failed
  | decrement key delta => exact counting key (-delta) failed
  | setIfAbsent key value ttl =>
      rw [carryOut_setIfAbsent] at failed
      split at failed <;> cases failed
  | set _ _ _ | delete _ | has _ | flush | invalidate _ | close | stats | getMany _ | setMany _ _ =>
      cases failed

/-- There are no other failures, and none of these is passed over. -/
theorem carryOut_fails_iff (store : Store) (now : Nat) (op : Operation) (failure : CacheError) :
    (store.carryOut now op).1 = .error failure ↔ store.FailsWith now op failure := by
  refine ⟨fun failed => (carryOut_of_error failed).1, fun fails => ?_⟩
  cases op with
  | get key =>
      obtain ⟨absent, rfl⟩ := fails
      rw [carryOut_get, absent]
      rfl
  | remaining key =>
      obtain ⟨absent, rfl⟩ := fails
      rw [carryOut_remaining, absent]
      rfl
  | increment key delta =>
      exact congrArg Prod.fst ((store.add_fails_iff now key delta failure).mpr fails)
  | decrement key delta =>
      exact congrArg Prod.fst ((store.add_fails_iff now key (-delta) failure).mpr fails)
  | set _ _ _ | delete _ | has _ | flush | invalidate _ | close | stats | setIfAbsent _ _ _
  | getMany _ | setMany _ _ => exact fails.elim

/-! ### Counting in a slot -/

/-- Takes the slot of a key.  If the key has no live entry, a new counter is put there. -/
def takeSlot (store : Store) (now : Nat) (key : Bytes) : Entry × Store :=
  match store.live? now key with
  | some entry => (entry, store)
  | none =>
    (freshCounter now,
      { store with
        entries := store.entries.insert (store.options.fullKey key) (freshCounter now) })

/-- Adds to a counter in its slot: the slot is taken first, then it is read, and then the sum is
written back. -/
def addInSlot (store : Store) (now : Nat) (key : Bytes) (delta : Int) :
    Except CacheError Int × Store :=
  let (slot, store) := store.takeSlot now key
  match readInt64? slot.value with
  | none => (.error (.invalidRequest (utf8 "value at '" ++ key ++ utf8 "' is not an integer")), store)
  | some current =>
    let next := current + delta
    if fitsInt64 next then
      let slot := { slot with value := intText next }
      (.ok next, { store with entries := store.entries.insert (store.options.fullKey key) slot })
    else
      (.error (.invalidRequest (utf8 "increment of '" ++ key ++ utf8 "' would overflow")), store)

theorem readInt64?_freshCounter (now : Nat) : readInt64? (freshCounter now).value = some 0 := by
  show readInt64? (natText 0) = some 0
  decide +kernel

/-- **No slot is left half done.**  Counting in the slot of a key is counting. -/
theorem addInSlot_eq_add (store : Store) (now : Nat) (key : Bytes) {delta : Int}
    (fits : fitsInt64 delta = true) : store.addInSlot now key delta = store.add now key delta := by
  unfold addInSlot takeSlot add
  cases store.live? now key with
  | some entry => rfl
  | none =>
      -- A new counter takes every addition, and then it is overwritten.
      simp only [Option.getD_none, readInt64?_freshCounter, Int.zero_add, fits, if_true,
        Table.insert_insert]

/-! ### Closing -/

/-- A store that is closed has no entries. -/
def Settled (store : Store) : Prop :=
  store.isOpen = false → store.entries = .empty

theorem settled_fresh (options : Options) : Settled (.fresh options) := nofun

/-- A closed store without entries is not changed by anything. -/
theorem happen_shut (closed : store.isOpen = false) (settled : store.Settled) (now : Nat)
    (event : Event) : (machine.happen now store event).2 = store := by
  cases event with
  | call standing op =>
      show (store.perform now standing op).2 = store
      cases data : op.isData with
      | true => rw [perform_of_closed closed now standing data]
      | false =>
          cases op with
          | close =>
              show store.shut = store
              rw [shut, closed]
              rfl
          | _ => cases data
  | advance millis => rfl
  | sweep =>
      show store.sweep now = store
      obtain ⟨options, entries, ledger, isOpen⟩ := store
      obtain rfl : entries = .empty := settled closed
      rfl

/-- **Closing is final.** -/
theorem reach_shut (closed : store.isOpen = false) (settled : store.Settled) (now : Nat)
    (events : List Event) : (machine.reach now store events).2 = store := by
  induction events generalizing now with
  | nil => rfl
  | cons event events ih =>
      rw [Machine.reach, happen_shut closed settled]
      exact ih _

theorem settled_shut (settled : store.Settled) : store.shut.Settled := by
  unfold shut
  split
  · exact fun _ => rfl
  · exact settled

/-- A call leaves a store that is open, or closed and empty. -/
theorem settled_perform (settled : store.Settled) (now : Nat) (standing : Standing)
    (op : Operation) : (store.perform now standing op).2.Settled := by
  cases isOpen : store.isOpen with
  | false =>
      have same : (store.perform now standing op).2 = store :=
        happen_shut isOpen settled now (.call standing op)
      rw [same]
      exact settled
  | true =>
      cases data : op.isData with
      | true =>
          unfold perform
          rw [if_pos data]
          split
          · exact settled
          · intro closed
            rw [isOpen_carryOut store now data, isOpen] at closed
            cases closed
      | false =>
          cases op with
          | close => exact settled_shut settled
          | _ => cases data

theorem settled_happen (settled : store.Settled) (now : Nat) (event : Event) :
    (machine.happen now store event).2.Settled := by
  cases event with
  | call standing op => exact settled_perform settled now standing op
  | advance millis => exact settled
  | sweep =>
      intro closed
      have same : (machine.happen now store .sweep).2 = store :=
        @happen_shut store closed settled now .sweep
      rw [same]
      exact settled closed

theorem settled_reach (settled : store.Settled) (now : Nat) (events : List Event) :
    (machine.reach now store events).2.Settled := by
  induction events generalizing now store with
  | nil => exact settled
  | cons event events ih => exact ih (settled_happen settled now event) _

/-! ### Whole runs -/

/-- What failures and closing do to a store at some moment. -/
structure FailsCleanly (now : Nat) (store : Store) : Prop where
  /-- A closed store is empty, and all that it says is that it is closed. -/
  closed : store.isOpen = false → store.entries = .empty ∧
    ∀ standing (op : Operation), op.isData = true →
      store.perform now standing op = (.error .closed, store)
  /-- Next comes cancellation. -/
  cancelled : ∀ (forest : TokenForest) clock context (op : Operation), store.isOpen = true →
    op.isData = true → forest.hasCancelled context = true →
    store.perform now (forest.standing clock context) op = (.error .canceled, store)
  /-- Next comes the deadline, which is reached as soon as the clock shows it. -/
  deadline : ∀ (forest : TokenForest) clock context (op : Operation) deadline, store.isOpen = true →
    op.isData = true → forest.hasCancelled context = false → context.deadline = some deadline →
    deadline ≤ clock →
    store.perform now (forest.standing clock context) op = (.error .deadlineExceeded, store)
  /-- All other failures have their reasons in the live entries.  They change no live entry, create
  none, and take none away but expired ones. -/
  other : ∀ (forest : TokenForest) clock context (op : Operation) failure, store.isOpen = true →
    forest.hasCancelled context = false →
    (∀ deadline, context.deadline = some deadline → clock < deadline) →
    let called := store.perform now (forest.standing clock context) op
    (called.1 = .error failure ↔ store.FailsWith now op failure) ∧
      (called.1 = .error failure → store.entries.Reclaimed now called.2.entries ∧
        (∀ key, called.2.live? now key = store.live? now key) ∧ called.2.isOpen = true)
  /-- An addition may put a new counter into the slot of a key before it is known to succeed. -/
  counting : ∀ key delta, fitsInt64 delta = true →
    store.addInSlot now key delta = store.add now key delta
  /-- Closing succeeds, it leaves nothing, and nothing that comes afterwards changes that. -/
  final : ∀ standing, ∃ shut : Store, store.perform now standing .close = (.ok (), shut) ∧
    shut.isOpen = false ∧ shut.entries = .empty ∧
    (∀ events, (machine.reach now shut events).2 = shut) ∧
    ∀ later standing (op : Operation),
      (op.isData = true → shut.perform later standing op = (.error .closed, shut)) ∧
        shut.perform later standing .close = (.ok (), shut)

/-- **Failures are clean and closing is final**, whatever has happened to a store. -/
theorem reach_failsCleanly (options : Options) (start : Nat) (events : List Event) :
    FailsCleanly (machine.reach start (.fresh options) events).1
      (machine.reach start (.fresh options) events).2 := by
  have settled := settled_reach (settled_fresh options) start events
  generalize (machine.reach start (.fresh options) events).2 = store at settled
  generalize (machine.reach start (.fresh options) events).1 = now
  refine ⟨?_, ?_, ?_, ?_, fun key delta => store.addInSlot_eq_add now key, ?_⟩
  · intro closed
    exact ⟨settled closed, fun standing op => perform_of_closed closed now standing⟩
  · intro forest clock context op isOpen data cancelled
    rw [TokenForest.standing_of_cancelled cancelled]
    exact perform_of_refusal (by rw [refusal?, isOpen]; rfl) data
  · intro forest clock context op deadline isOpen data uncancelled ends reached
    rw [TokenForest.standing_of_deadline uncancelled ends reached]
    exact perform_of_refusal (by rw [refusal?, isOpen]; rfl) data
  · intro forest clock context op failure isOpen uncancelled ahead
    rw [TokenForest.standing_of_ahead uncancelled ahead, perform_of_open isOpen]
    refine ⟨store.carryOut_fails_iff now op failure, fun failed => ?_⟩
    obtain ⟨-, alike, reclaimed⟩ := carryOut_of_error failed
    exact ⟨reclaimed, alike.live?, alike.isOpen.trans isOpen⟩
  · intro standing
    have closed : store.shut.isOpen = false := by
      unfold shut
      split
      next => rfl
      next open_ => exact Bool.eq_false_iff.mpr open_
    have empty := settled_shut settled
    refine ⟨store.shut, rfl, closed, empty closed, reach_shut closed empty now, ?_⟩
    intro later standing op
    exact ⟨perform_of_closed closed later standing,
      Prod.ext rfl (happen_shut closed empty later (.call standing .close))⟩

end Store

end TimedCache
