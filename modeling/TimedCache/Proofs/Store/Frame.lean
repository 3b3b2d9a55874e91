import TimedCache.Proofs.Store.Lock

/-!
# What leaves a key alone

An operation **may alter** a key if it can change what is live under it (`Operation.alters`): writes and
deletions of the key, counting on it, a flush, an invalidation by a pattern that accepts it, and closing.
All other operations leave what is live under the key as it is, whether there is something or nothing
(`Store.live?_perform_of_spared`).

A conditional write may alter its key, unlike what holds a lock in `Operation.strikes`: it writes where
nothing is live.

**What an operation makes of a key** depends on nothing but what is live under that key.  So two stores
that show the same under some keys go on to do so whatever they perform (`Store.AlikeOn.perform`).
-/

namespace TimedCache

/-- Whether an operation may change what is live under a key. -/
def Operation.alters (key : Bytes) : Operation → Bool
  | .set other _ _ | .delete other | .setIfAbsent other _ _ | .increment other _
  | .decrement other _ => other = key
  | .setMany entries _ => entries.contains key
  | .invalidate pattern => Glob.accepts pattern key
  | .flush | .close => true
  | .get _ | .has _ | .stats | .getMany _ | .remaining _ => false

/-- What may alter no key is no closing. -/
theorem Operation.isData_of_spares {key : Bytes} {op : Operation} (spares : op.alters key = false) :
    op.isData = true := by
  cases op with
  | close => cases spares
  | _ => rfl

namespace Store

variable {key : Bytes} {op : Operation}

/-- Operations leave the options of a store alone. -/
theorem options_carryOut (store : Store) (now : Nat) (op : Operation) :
    (store.carryOut now op).2.options = store.options := by
  have counted : ∀ key delta, (store.add now key delta).2.options = store.options := by
    intro key delta
    obtain ⟨_, failed⟩ | ⟨_, _, counted⟩ := store.add_cases now key delta
    · rw [failed]
    · rw [counted]
  have writtenAll : ∀ ttl pairs (store : Store),
      (writeMany now ttl pairs store).options = store.options := by
    intro ttl pairs
    induction pairs with
    | nil => exact fun _ => rfl
    | cons pair pairs ih => exact fun store => ih (store.write now pair.1 pair.2 ttl)
  cases op with
  | increment key delta => exact counted key delta
  | decrement key delta => exact counted key (-delta)
  | setIfAbsent key value ttl =>
      rw [carryOut_setIfAbsent]
      split <;> rfl
  | setMany entries ttl => exact writtenAll ttl entries.pairs store
  | set _ _ _ => rfl
  | get _ | delete _ | has _ | flush | invalidate _ | close | stats | getMany _ | remaining _ =>
      exact (store.carryOut_onlyRemoves now rfl).options

/-- Counting on one key leaves the others alone. -/
theorem live?_add_of_ne {other : Bytes} (ne : key ≠ other) (store : Store) (now : Nat)
    (delta : Int) : (store.add now other delta).2.live? now key = store.live? now key := by
  obtain ⟨_, failed⟩ | ⟨_, counter, counted⟩ := store.add_cases now other delta
  · rw [failed]
  · rw [counted]
    exact (store.live?_insert now other key counter _).trans (if_neg ne)

/-- **What does not alter a key** leaves what is live under it. -/
theorem live?_carryOut_of_spared (store : Store) (now : Nat) (spares : op.alters key = false) :
    (store.carryOut now op).2.live? now key = store.live? now key := by
  have ne : ∀ {other : Bytes}, decide (other = key) = false → key ≠ other :=
    fun spares same => of_decide_eq_false spares same.symm
  cases op with
  | get other =>
      rw [carryOut_get]
      exact (store.read_alike now other).live? key
  | has other => exact (store.readLive_alike now (store.options.fullKey other)).live? key
  | getMany keys => exact (readMany_alike now keys .empty store).live? key
  | remaining other => rw [carryOut_remaining]
  | stats => rfl
  | set other value ttl => exact live?_write_of_ne (ne spares) store now value ttl
  | delete other => exact live?_remove_of_ne (ne spares) store now
  | increment other delta => exact live?_add_of_ne (ne spares) store now delta
  | decrement other delta => exact live?_add_of_ne (ne spares) store now (-delta)
  | setIfAbsent other value ttl =>
      rw [carryOut_setIfAbsent]
      split
      · rfl
      · exact live?_write_of_ne (ne spares) store now value ttl
  | setMany entries ttl =>
      have absent : key ∉ entries.pairs.map Prod.fst := fun mem =>
        absurd ((Table.mem_keys_iff.mp mem).symm.trans spares) Bool.noConfusion
      exact live?_writeMany_of_not_mem now ttl absent store
  | invalidate pattern =>
      refine (live?_removeAll store (Glob.accepts pattern) now key).trans ?_
      exact if_neg (Bool.eq_false_iff.mp spares)
  | flush | close => cases spares

/-- **A call that does not alter a key**, whatever becomes of it, leaves the options of the store,
whether it is open, and what is live under the key. -/
theorem live?_perform_of_spared (store : Store) (now : Nat) (standing : Standing)
    (spares : op.alters key = false) :
    (store.perform now standing op).2.options = store.options ∧
      (store.perform now standing op).2.isOpen = store.isOpen ∧
      (store.perform now standing op).2.live? now key = store.live? now key := by
  have data := Operation.isData_of_spares spares
  unfold perform
  rw [if_pos data]
  cases store.refusal? standing with
  | some failure => exact ⟨rfl, rfl, rfl⟩
  | none =>
      exact ⟨store.options_carryOut now op, store.isOpen_carryOut now data,
        store.live?_carryOut_of_spared now spares⟩

/-! ### What is not there -/

/-- Nothing at all is stored under a key, not even something that has expired. -/
def Lacks (store : Store) (key : Bytes) : Prop :=
  store.entries.find? (store.options.fullKey key) = none

theorem OnlyRemoves.lacks {store after : Store} (removes : store.OnlyRemoves after)
    (lacks : store.Lacks key) : after.Lacks key := by
  rw [Lacks, removes.options]
  refine Option.eq_none_iff_forall_ne_some.mpr fun entry found => ?_
  cases lacks.symm.trans (removes.sub found)

/-- Writing under one key puts nothing under another one. -/
theorem Lacks.insert {store : Store} (lacks : store.Lacks key) {other : Bytes} (ne : key ≠ other)
    (entry : Entry) (ledger : Ledger) :
    Lacks { store with
      entries := store.entries.insert (store.options.fullKey other) entry, ledger } key := by
  refine (Table.find?_insert ..).trans ?_
  rw [if_neg fun same => ne (store.options.fullKey_inj.mp same)]
  exact lacks

theorem Lacks.add {store : Store} (lacks : store.Lacks key) {other : Bytes} (ne : key ≠ other)
    (now : Nat) (delta : Int) : (store.add now other delta).2.Lacks key := by
  obtain ⟨_, failed⟩ | ⟨_, counter, counted⟩ := store.add_cases now other delta
  · rw [failed]
    exact lacks
  · rw [counted]
    exact lacks.insert ne counter store.ledger

theorem Lacks.writeMany {store : Store} (lacks : store.Lacks key) (now : Nat) (ttl : Duration)
    {pairs : List (Bytes × Bytes)} (absent : key ∉ pairs.map Prod.fst) :
    (Store.writeMany now ttl pairs store).Lacks key := by
  induction pairs generalizing store with
  | nil => exact lacks
  | cons pair pairs ih =>
      rw [List.map_cons, List.mem_cons, not_or] at absent
      exact ih (lacks.insert absent.1 _ _) absent.2

/-- **What does not alter a key** puts nothing where nothing is. -/
theorem Lacks.perform {store : Store} (lacks : store.Lacks key) (now : Nat) (standing : Standing)
    (spares : op.alters key = false) : (store.perform now standing op).2.Lacks key := by
  cases puts : op.puts with
  | false => exact (store.perform_onlyRemoves now standing puts).lacks lacks
  | true =>
      have ne : ∀ {other : Bytes}, decide (other = key) = false → key ≠ other :=
        fun spares same => of_decide_eq_false spares same.symm
      unfold Store.perform
      rw [if_pos (Operation.isData_of_spares spares)]
      cases store.refusal? standing with
      | some failure => exact lacks
      | none =>
          cases op with
          | set other value ttl => exact lacks.insert (ne spares) _ _
          | setIfAbsent other value ttl =>
              rw [carryOut_setIfAbsent]
              cases (store.live? now other).isSome with
              | true => exact lacks
              | false => exact lacks.insert (ne spares) _ _
          | setMany entries ttl =>
              refine lacks.writeMany now ttl fun mem => ?_
              exact absurd ((Table.mem_keys_iff.mp mem).symm.trans spares) Bool.noConfusion
          | increment other delta => exact lacks.add (ne spares) now delta
          | decrement other delta => exact lacks.add (ne spares) now (-delta)
          | get _ | delete _ | has _ | flush | invalidate _ | close | stats | getMany _
          | remaining _ => cases puts

/-! ### Stores that show the same under some keys -/

/-- Stores that show the same under certain keys. -/
structure AlikeOn (now : Nat) (keys : Bytes → Prop) (store other : Store) : Prop where
  options : other.options = store.options
  isOpen : other.isOpen = store.isOpen
  live : ∀ key, keys key → other.live? now key = store.live? now key

variable {now : Nat} {keys : Bytes → Prop} {store other third : Store}

theorem Alike.on (alike : Alike now store other) (keys : Bytes → Prop) :
    AlikeOn now keys store other :=
  ⟨alike.options, alike.isOpen, fun key _ => alike.live? key⟩

theorem AlikeOn.symm (alike : AlikeOn now keys store other) : AlikeOn now keys other store :=
  ⟨alike.options.symm, alike.isOpen.symm, fun key among => (alike.live key among).symm⟩

theorem AlikeOn.trans (first : AlikeOn now keys store other) (second : AlikeOn now keys other third) :
    AlikeOn now keys store third :=
  ⟨second.options.trans first.options, second.isOpen.trans first.isOpen,
    fun key among => (second.live key among).trans (first.live key among)⟩

theorem AlikeOn.later {later : Nat} (alike : AlikeOn now keys store other) (le : now ≤ later) :
    AlikeOn later keys store other :=
  ⟨alike.options, alike.isOpen, fun key among => by
    rw [live?_later le, alike.live key among, ← live?_later le]⟩

/-- A write shows the same in both. -/
theorem AlikeOn.write (alike : AlikeOn now keys store other) (key value : Bytes) (ttl : Duration) :
    AlikeOn now keys (store.write now key value ttl) (other.write now key value ttl) where
  options := alike.options
  isOpen := alike.isOpen
  live := fun shown among => by
    rw [Store.write, Store.write, live?_insert, live?_insert, alike.live shown among, newEntry,
      newEntry, alike.options]

theorem AlikeOn.writeMany (alike : AlikeOn now keys store other) (ttl : Duration)
    (pairs : List (Bytes × Bytes)) :
    AlikeOn now keys (Store.writeMany now ttl pairs store) (Store.writeMany now ttl pairs other) := by
  induction pairs generalizing store other with
  | nil => exact alike
  | cons pair pairs ih => exact ih (alike.write pair.1 pair.2 ttl)

theorem AlikeOn.removeAll (alike : AlikeOn now keys store other) (selected : Bytes → Bool) :
    AlikeOn now keys (store.removeAll selected).2 (other.removeAll selected).2 where
  options := alike.options
  isOpen := alike.isOpen
  live := fun key among => by
    rw [live?_removeAll, live?_removeAll, alike.live key among]

/-- Deleting a key shows the same in both. -/
theorem AlikeOn.remove (alike : AlikeOn now keys store other) (key : Bytes) :
    AlikeOn now keys (store.remove key) (other.remove key) where
  options := (other.remove_kept key).1.trans (alike.options.trans (store.remove_kept key).1.symm)
  isOpen := (other.remove_kept key).2.trans (alike.isOpen.trans (store.remove_kept key).2.symm)
  live := fun shown among => by
    rw [live?_remove, live?_remove, alike.live shown among]

/-- Closing shows nothing in either. -/
theorem AlikeOn.shut (alike : AlikeOn now keys store other) :
    AlikeOn now keys store.shut other.shut := by
  unfold Store.shut
  rw [alike.isOpen]
  split
  · exact ⟨alike.options, rfl, fun _ _ => rfl⟩
  · exact alike

/-- Counting on one of the keys shows the same in both. -/
theorem AlikeOn.live?_add (alike : AlikeOn now keys store other) {key : Bytes} (among : keys key)
    (delta : Int) :
    (other.add now key delta).2.live? now key = (store.add now key delta).2.live? now key := by
  have same := alike.live key among
  unfold Store.add
  dsimp only
  rw [same]
  cases readInt64? ((store.live? now key).getD (freshCounter now)).value with
  | none => exact same
  | some current =>
      dsimp only
      cases fitsInt64 (current + delta) with
      | false => exact same
      | true =>
          rw [if_pos rfl, if_pos rfl]
          refine (live?_insert other now key key _ _).trans (Eq.trans ?_
            (live?_insert store now key key _ _).symm)
          rw [if_pos rfl, if_pos rfl]

theorem AlikeOn.carryOut (alike : AlikeOn now keys store other) (op : Operation) :
    AlikeOn now keys (store.carryOut now op).2 (other.carryOut now op).2 where
  options := by rw [options_carryOut, options_carryOut, alike.options]
  isOpen := by
    cases data : op.isData with
    | true => rw [isOpen_carryOut other now data, isOpen_carryOut store now data, alike.isOpen]
    | false =>
        cases op with
        | close => exact alike.shut.isOpen
        | _ => cases data
  live := fun key among => by
    cases alters : op.alters key with
    | false =>
        rw [other.live?_carryOut_of_spared now alters, store.live?_carryOut_of_spared now alters,
          alike.live key among]
    | true =>
        cases op with
        | set other' value ttl => exact (alike.write other' value ttl).live key among
        | delete other' => exact (alike.remove other').live key among
        | setMany entries ttl => exact (alike.writeMany ttl entries.pairs).live key among
        | invalidate pattern => exact (alike.removeAll (Glob.accepts pattern)).live key among
        | flush => exact (alike.removeAll fun _ => true).live key among
        | close => exact alike.shut.live key among
        | setIfAbsent other' value ttl =>
            obtain rfl : other' = key := of_decide_eq_true alters
            rw [carryOut_setIfAbsent, carryOut_setIfAbsent, alike.live other' among]
            cases (store.live? now other').isSome with
            | true => exact alike.live other' among
            | false => exact (alike.write other' value ttl).live other' among
        | increment other' delta =>
            obtain rfl : other' = key := of_decide_eq_true alters
            exact alike.live?_add among delta
        | decrement other' delta =>
            obtain rfl : other' = key := of_decide_eq_true alters
            exact alike.live?_add among (-delta)
        | get _ | has _ | stats | getMany _ | remaining _ => cases alters

/-- **What an operation makes of some keys** depends on nothing but what is live under them.  Operations
on other keys may be answered differently in both, but that does not show under these. -/
theorem AlikeOn.perform (alike : AlikeOn now keys store other) (standing : Standing)
    (op : Operation) :
    AlikeOn now keys (store.perform now standing op).2 (other.perform now standing op).2 := by
  have same : other.refusal? standing = store.refusal? standing := by
    rw [refusal?, refusal?, alike.isOpen]
  unfold Store.perform
  rw [same]
  cases op.isData with
  | false => exact alike.carryOut op
  | true =>
      rw [if_pos rfl, if_pos rfl]
      cases store.refusal? standing with
      | some failure => exact alike
      | none => exact alike.carryOut op

/-- What does not alter some keys shows the same under them as before. -/
theorem alikeOn_perform_of_spared (store : Store) (now : Nat) (standing : Standing)
    (data : op.isData = true) (spares : ∀ key, keys key → op.alters key = false) :
    AlikeOn now keys store (store.perform now standing op).2 := by
  unfold Store.perform
  rw [if_pos data]
  cases store.refusal? standing with
  | some failure => exact (Alike.refl now store).on keys
  | none =>
      exact ⟨store.options_carryOut now op, store.isOpen_carryOut now data,
        fun key among => store.live?_carryOut_of_spared now (spares key among)⟩

end Store

end TimedCache
