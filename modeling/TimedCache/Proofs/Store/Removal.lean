import TimedCache.Proofs.Store.Live

/-!
# What only takes entries away

Between two stores **only removals** lie (`Store.OnlyRemoves`) if the second holds no entry that the
first does not hold as well, under the same key and with the same content.

Operations that put nothing into the store (`Operation.puts`) only remove, however they are answered
(`perform_onlyRemoves`), and so do sweeps, one or several of them (`catchUp_onlyRemoves`).
-/

namespace TimedCache

/-- Whether an operation may put something into the store. -/
def Operation.puts : Operation → Bool
  | .set _ _ _ | .setIfAbsent _ _ _ | .setMany _ _ | .increment _ _ | .decrement _ _ => true
  | _ => false

/-- Whether an operation on data takes away what a key has. -/
def Operation.clears (key : Bytes) : Operation → Bool
  | .delete other => other = key
  | .flush => true
  | .invalidate pattern => Glob.accepts pattern key
  | _ => false

namespace Store

/-- The second store holds nothing that the first does not hold. -/
structure OnlyRemoves (before after : Store) : Prop where
  options : after.options = before.options
  sub : ∀ {full entry}, after.entries.find? full = some entry →
    before.entries.find? full = some entry

variable {before store after : Store}

theorem OnlyRemoves.refl (store : Store) : OnlyRemoves store store := ⟨rfl, id⟩

theorem OnlyRemoves.trans (first : OnlyRemoves before store) (second : OnlyRemoves store after) :
    OnlyRemoves before after :=
  ⟨second.options.trans first.options, fun found => first.sub (second.sub found)⟩

theorem OnlyRemoves.contains (removes : OnlyRemoves before after) {full : Bytes}
    (there : after.entries.contains full = true) : before.entries.contains full = true := by
  obtain ⟨entry, found⟩ := Option.isSome_iff_exists.mp there
  exact Option.isSome_iff_exists.mpr ⟨entry, removes.sub found⟩

/-- What a condition keeps was there before. -/
theorem find?_of_find?_filter {keep : Bytes → Entry → Bool} {entries : Table Entry} {full : Bytes}
    {entry : Entry} (found : (entries.filter keep).find? full = some entry) :
    entries.find? full = some entry := by
  rw [Table.find?_filter] at found
  exact (Option.filter_eq_some_iff.mp found).1

/-! ### Reclaiming -/

theorem readLive_onlyRemoves (store : Store) (now : Nat) (full : Bytes) :
    OnlyRemoves store (store.readLive now full).2 :=
  ⟨(readLive_alike store now full).options, (readLive_reclaimed store now full).sub⟩

theorem read_onlyRemoves (store : Store) (now : Nat) (key : Bytes) :
    OnlyRemoves store (store.read now key).2 := by
  have removes := readLive_onlyRemoves store now (store.options.fullKey key)
  unfold read
  cases read : store.readLive now (store.options.fullKey key) with
  | mk value store' =>
      rw [read] at removes
      cases value <;> exact ⟨removes.options, removes.sub⟩

theorem readMany_onlyRemoves (now : Nat) (keys : List Bytes) (found : Table Bytes)
    (store : Store) : OnlyRemoves store (readMany now keys found store).2 := by
  induction keys generalizing found store with
  | nil => exact .refl store
  | cons key keys ih =>
      have removes := read_onlyRemoves store now key
      rw [readMany]
      cases read : store.read now key with
      | mk value store' =>
          rw [read] at removes
          cases value with
          | none => exact removes.trans (ih found store')
          | some value => exact removes.trans (ih (found.insert key value) store')

/-! ### Operations -/

theorem carryOut_onlyRemoves (store : Store) (now : Nat) {op : Operation}
    (reads : op.puts = false) : OnlyRemoves store (store.carryOut now op).2 := by
  cases op with
  | get key =>
      rw [carryOut_get]
      exact read_onlyRemoves store now key
  | delete key =>
      show OnlyRemoves store (store.remove key)
      unfold remove
      dsimp only
      split
      · exact ⟨rfl, find?_of_find?_filter⟩
      · exact .refl store
  | has key => exact readLive_onlyRemoves store now (store.options.fullKey key)
  | flush => exact ⟨rfl, find?_of_find?_filter⟩
  | invalidate pattern => exact ⟨rfl, find?_of_find?_filter⟩
  | close =>
      show OnlyRemoves store store.shut
      unfold shut
      split
      · exact ⟨rfl, fun found => nomatch found⟩
      · exact .refl store
  | getMany keys => exact readMany_onlyRemoves now keys .empty store
  | remaining key =>
      rw [carryOut_remaining]
      exact .refl store
  | stats => exact .refl store
  | set _ _ _ | setIfAbsent _ _ _ | setMany _ _ | increment _ _ | decrement _ _ => cases reads

/-- An operation that clears a key leaves nothing under it. -/
theorem find?_carryOut_of_clears (store : Store) (now : Nat) {op : Operation} {key : Bytes}
    (clears : op.clears key = true) :
    (store.carryOut now op).2.entries.find? (store.options.fullKey key) = none := by
  have selected : ∀ {selected : Bytes → Bool}, selected key = true →
      (store.removeAll selected).2.entries.find? (store.options.fullKey key) = none := by
    intro selected accepts
    refine (Table.find?_filter _ _ _).trans ?_
    rw [selects, store.options.logicalKey?_fullKey]
    dsimp only
    rw [accepts]
    cases store.entries.find? (store.options.fullKey key) <;> rfl
  cases op with
  | delete other =>
      obtain rfl : other = key := of_decide_eq_true clears
      exact (store.find?_remove other _).trans (if_pos rfl)
  | flush => exact selected rfl
  | invalidate pattern => exact selected clears
  | close | get _ | set _ _ _ | has _ | stats | increment _ _ | decrement _ _ | setIfAbsent _ _ _
  | getMany _ | setMany _ _ | remaining _ => cases clears

/-- An operation that clears a key has failed, or has left nothing under it. -/
theorem find?_perform_of_clears (store : Store) (now : Nat) (standing : Standing) {op : Operation}
    {key : Bytes} (clears : op.clears key = true) :
    (∃ failure, (store.perform now standing op).1 = .error failure) ∨
      (store.perform now standing op).2.entries.find? (store.options.fullKey key) = none := by
  unfold perform
  split
  · cases store.refusal? standing with
    | some failure => exact .inl ⟨failure, rfl⟩
    | none => exact .inr (store.find?_carryOut_of_clears now clears)
  · exact .inr (store.find?_carryOut_of_clears now clears)

/-- **Operations that put nothing into the store** only remove. -/
theorem perform_onlyRemoves (store : Store) (now : Nat) (standing : Standing) {op : Operation}
    (reads : op.puts = false) : OnlyRemoves store (store.perform now standing op).2 := by
  unfold perform
  split
  · split
    · exact .refl store
    · exact carryOut_onlyRemoves store now reads
  · exact carryOut_onlyRemoves store now reads

/-! ### Sweeps -/

theorem sweep_onlyRemoves (store : Store) (now : Nat) : OnlyRemoves store (store.sweep now) :=
  ⟨rfl, (Table.reclaim_reclaimed now (expiredKeys store.entries now) store.entries).sub⟩

/-- **Passes of a sweeper** only remove. -/
theorem catchUp_onlyRemoves (wall : Nat → Nat) (limit : Nat) (sweeper : Sweeper) (store : Store) :
    OnlyRemoves store (sweeper.catchUp wall limit store).2 :=
  catchUp_induction (fun _ removes => removes.trans (sweep_onlyRemoves _ _)) sweeper (.refl store)

end Store

end TimedCache
