import TimedCache.Proofs.Store.Live
import TimedCache.Proofs.Table
import TimedCache.Proofs.TtlMap

/-!
# A local backend is a TTL map

A store keeps expired entries until something reclaims them; the TTL map of
`TimedCache.Proofs.TtlMap` never reclaims anything and never shows what has expired.  No answer
tells the two apart, whenever the store is swept.

**Relation.**  A store refines a map at a moment when the live entries of the store are the cells
that are present in the map (`Store.Refines`).  Every operation, the passing of time and every sweep
keep the relation.

**Counts.**  When keys are removed by a pattern, the store also counts the expired entries that it
still has, and this is all that the two counts differ by (`removeAll_fst`).
-/

namespace TimedCache

/-! ### Entries and cells -/

/-- What an entry shows. -/
def Entry.cell (entry : Entry) : Cell := ⟨entry.value, entry.expiresAt⟩

theorem Entry.isPresent_cell (entry : Entry) (now : Nat) :
    entry.cell.isPresent now = !entry.isExpired now := by
  rw [Entry.cell, Cell.isPresent, Entry.isExpired]
  cases entry.expiresAt with
  | none => rfl
  | some expires =>
      simp only [← Nat.not_le]
      exact decide_not

/-- What is live in a table of entries is what is present of their cells. -/
theorem map_cell_filter (found : Option Entry) (now : Nat) :
    (found.filter fun entry => !entry.isExpired now).map Entry.cell =
      (found.map Entry.cell).filter fun cell => cell.isPresent now := by
  cases found with
  | none => rfl
  | some entry =>
      rw [Option.filter_some, Option.map_some, Option.filter_some, Entry.isPresent_cell]
      split <;> rfl

/-! ### The relation -/

namespace Store

/-- The live entries of the store are the cells that are present in the map.  After closing there is
nothing left to compare. -/
structure Refines (now : Nat) (store : Store) (map : TtlMap) : Prop where
  options : map.options = store.options
  isOpen : map.isOpen = store.isOpen
  shows : store.isOpen = true → ∀ key, map.see now key = (store.live? now key).map Entry.cell

theorem refines_fresh (now : Nat) (options : Options) :
    Refines now (.fresh options) (.fresh options) :=
  ⟨rfl, rfl, fun _ _ => rfl⟩

variable {now : Nat} {store other : Store} {map : TtlMap}

/-- Expired entries and ledgers do not matter. -/
theorem Refines.alike (refines : Refines now store map) (alike : Alike now store other) :
    Refines now other map where
  options := refines.options.trans alike.options.symm
  isOpen := refines.isOpen.trans alike.isOpen.symm
  shows := fun isOpen key => by
    rw [alike.live?, refines.shows (alike.isOpen.symm.trans isOpen)]

/-- The relation survives the passing of time. -/
theorem Refines.later {later : Nat} (le : now ≤ later) (refines : Refines now store map) :
    Refines later store map where
  options := refines.options
  isOpen := refines.isOpen
  shows := fun isOpen key => by
    rw [TtlMap.see, Table.present?_later le, ← TtlMap.see, refines.shows isOpen, live?_later le,
      map_cell_filter]

/-- The relation survives a new entry under a key. -/
theorem Refines.insert (refines : Refines now store map) (key : Bytes) (entry : Entry)
    (ledger : Ledger) :
    Refines now
      { store with entries := store.entries.insert (store.options.fullKey key) entry, ledger }
      (map.put key entry.cell) where
  options := refines.options
  isOpen := refines.isOpen
  shows := fun isOpen other => by
    rw [TtlMap.see, TtlMap.put, Table.present?_insert, ← TtlMap.see, live?_insert]
    by_cases same : other = key
    · rw [if_pos same, if_pos same, map_cell_filter]
      rfl
    · rw [if_neg same, if_neg same, refines.shows isOpen]

/-- What is written has the same expiry in both. -/
theorem Refines.cell_newEntry (refines : Refines now store map) (value : Bytes) (ttl : Duration) :
    (store.newEntry now value ttl).cell = map.newCell now value ttl := by
  rw [TtlMap.newCell, refines.options]
  rfl

theorem Refines.write (refines : Refines now store map) (key value : Bytes) (ttl : Duration) :
    Refines now (store.write now key value ttl) (map.put key (map.newCell now value ttl)) := by
  rw [← refines.cell_newEntry value ttl]
  exact refines.insert key (store.newEntry now value ttl) store.ledger.set

theorem Refines.writeMany (refines : Refines now store map) (ttl : Duration)
    (pairs : List (Bytes × Bytes)) :
    Refines now (writeMany now ttl pairs store) (map.putMany now ttl pairs) := by
  induction pairs generalizing store map with
  | nil => exact refines
  | cons pair pairs ih => exact ih (refines.write pair.1 pair.2 ttl)

/-- Selection by logical keys. -/
@[simp] theorem selects_fullKey (store : Store) (selected : Bytes → Bool) (key : Bytes) :
    store.selects selected (store.options.fullKey key) = selected key := by
  rw [selects, Options.logicalKey?_fullKey]

/-- Only full keys of the namespace are selected. -/
theorem selects_eq_true_iff {selected : Bytes → Bool} {full : Bytes} :
    store.selects selected full = true ↔
      ∃ key, store.options.fullKey key = full ∧ selected key = true := by
  constructor
  · intro chosen
    unfold selects at chosen
    split at chosen
    next key found =>
      exact ⟨key, (Bytes.strip?_eq_some_iff.mp found).symm, chosen⟩
    next => cases chosen
  · rintro ⟨key, rfl, chosen⟩
    rw [selects_fullKey, chosen]

theorem live?_removeAll (store : Store) (selected : Bytes → Bool) (now : Nat) (key : Bytes) :
    (store.removeAll selected).2.live? now key =
      if selected key then none else store.live? now key := by
  have kept := Table.live?_filter_key (fun full => !store.selects selected full)
    (store.options.fullKey key) store.entries now
  rw [selects_fullKey] at kept
  refine Eq.trans kept ?_
  cases selected key <;> rfl

/-- The expired entries of a store that a selection of logical keys still finds. -/
def unreclaimed (store : Store) (now : Nat) (selected : Bytes → Bool) : Nat :=
  (store.entries.filter fun full entry => entry.isExpired now && store.selects selected full).size

/-- What is live under a full key of the namespace is present under its logical key. -/
theorem Refines.isSome_selected_iff (refines : Refines now store map) (isOpen : store.isOpen = true)
    (selected : Bytes → Bool) (key : Bytes) :
    ((store.entries.filter fun full entry =>
        !entry.isExpired now && store.selects selected full).find?
          (store.options.fullKey key)).isSome =
      ((map.cells.filter fun key cell => cell.isPresent now && selected key).find? key).isSome := by
  rw [Table.find?_filter, Table.find?_filter, selects_fullKey]
  cases selected key with
  | false => simp
  | true =>
      have shows := congrArg Option.isSome (refines.shows isOpen key)
      rw [Option.isSome_map] at shows
      simp only [Bool.and_true]
      exact shows.symm

/-- A removal counts what is present, and the expired entries besides. -/
theorem Refines.removeAll_fst (refines : Refines now store map) (isOpen : store.isOpen = true)
    (selected : Bytes → Bool) :
    (store.removeAll selected).1 =
      map.cells.presentCount now selected + store.unreclaimed now selected := by
  -- Of the selected entries some are expired, and the others are what the map shows.
  have split := store.entries.size_filter_add (fun full _ => store.selects selected full)
    fun _ entry => entry.isExpired now
  rw [Nat.add_comm] at split
  refine split.trans (congrArg (· + _) ?_)
  refine Table.size_eq_of_keys (f := store.options.fullKey)
    (fun a b same => store.options.fullKey_inj.mp same) fun full => ?_
  constructor
  · intro there
    obtain ⟨entry, found⟩ := Option.isSome_iff_exists.mp there
    rw [Table.find?_filter] at found
    have chosen := (Option.filter_eq_some_iff.mp found).2
    rw [Bool.and_eq_true] at chosen
    obtain ⟨key, rfl, -⟩ := selects_eq_true_iff.mp chosen.2
    exact ⟨key, rfl, (refines.isSome_selected_iff isOpen selected key).symm.trans there⟩
  · rintro ⟨key, rfl, there⟩
    exact (refines.isSome_selected_iff isOpen selected key).trans there

/-- Removing the selected keys keeps the relation. -/
theorem Refines.removeAll_snd (refines : Refines now store map) (selected : Bytes → Bool)
    {cells : Table Cell} (left : ∀ key, cells.present? now key =
      if selected key then none else map.see now key) :
    Refines now (store.removeAll selected).2 { map with cells } where
  options := refines.options
  isOpen := refines.isOpen
  shows := fun isOpen key => by
    rw [live?_removeAll, TtlMap.see, left, refines.shows isOpen]
    cases selected key <;> rfl

theorem Refines.remove (refines : Refines now store map) (key : Bytes) :
    Refines now (store.remove key) { map with cells := map.cells.erase key } := by
  have kept := store.remove_kept key
  refine ⟨refines.options.trans kept.1.symm, refines.isOpen.trans kept.2.symm, fun isOpen other => ?_⟩
  rw [TtlMap.see, Table.present?_erase, ← TtlMap.see, live?_remove]
  by_cases same : other = key
  · rw [if_pos same, if_pos same]
    rfl
  · rw [if_neg same, if_neg same, refines.shows (kept.2.symm.trans isOpen)]

/-- Adding to a counter gives the same in both. -/
theorem Refines.add (refines : Refines now store map) (isOpen : store.isOpen = true) (key : Bytes)
    (delta : Int) :
    (store.add now key delta).1 = (map.add now key delta).1 ∧
      Refines now (store.add now key delta).2 (map.add now key delta).2 := by
  have start : (map.see now key).getD ⟨natText 0, none⟩ =
      ((store.live? now key).getD (freshCounter now)).cell := by
    rw [refines.shows isOpen]
    cases store.live? now key <;> rfl
  unfold Store.add TtlMap.add
  rw [start]
  generalize (store.live? now key).getD (freshCounter now) = entry
  dsimp only [Entry.cell]
  cases readInt64? entry.value with
  | none => exact ⟨rfl, refines⟩
  | some current =>
      dsimp only
      by_cases fits : fitsInt64 (current + delta) = true
      · rw [if_pos fits, if_pos fits]
        refine ⟨rfl, ?_⟩
        exact refines.insert key { entry with value := intText (current + delta) } store.ledger
      · rw [if_neg fits, if_neg fits]
        exact ⟨rfl, refines⟩

/-! ### Calls -/

/-- How the answer of a store may differ from that of something which shows the same: the number of
removed keys by the expired entries that the store had not reclaimed, statistics in everything but
their success, and every other answer in nothing. -/
def AgreeOn (store : Store) (now : Nat) : (op : Operation) → op.Answer → op.Answer → Prop
  | .invalidate pattern, answer, other =>
    answer = other.map (· + store.unreclaimed now (Glob.accepts pattern))
  | .stats, answer, other => answer.map (fun _ => ()) = other.map fun _ => ()
  | _, answer, other => answer = other

theorem agreeOn_error (store : Store) (now : Nat) (op : Operation) (failure : CacheError) :
    AgreeOn store now op (.error failure) (.error failure) := by
  cases op <;> rfl

/-- An operation that may begin gives the same answer on both sides and keeps the relation. -/
theorem Refines.carryOut (refines : Refines now store map) (isOpen : store.isOpen = true)
    (op : Operation) :
    AgreeOn store now op (store.carryOut now op).1 (map.carryOut now op).1 ∧
      Refines now (store.carryOut now op).2 (map.carryOut now op).2 := by
  have shows := refines.shows isOpen
  cases op with
  | get key =>
      -- An entry that has expired is dropped by the lookup; it was not shown before, either.
      rw [carryOut_get, TtlMap.carryOut_get]
      refine ⟨?_, refines.alike (read_alike store now key)⟩
      show Option.elim _ _ _ = Option.elim _ _ _
      rw [shows, Option.map_map]
      rfl
  | set key value ttl => exact ⟨rfl, refines.write key value ttl⟩
  | delete key => exact ⟨rfl, refines.remove key⟩
  | has key =>
      refine ⟨?_, refines.alike (readLive_alike store now (store.options.fullKey key))⟩
      show Except.ok (store.readLive now (store.options.fullKey key)).1.isSome =
        Except.ok (map.see now key).isSome
      rw [readLive_fst, shows, live?_eq, Option.isSome_map, Option.isSome_map]
  | flush => exact ⟨rfl, refines.removeAll_snd (fun _ => true) fun _ => rfl⟩
  | invalidate pattern =>
      refine ⟨?_, refines.removeAll_snd (Glob.accepts pattern) fun key => ?_⟩
      · exact congrArg Except.ok (refines.removeAll_fst isOpen (Glob.accepts pattern))
      · rw [Table.present?_filter_key fun key => !Glob.accepts pattern key, TtlMap.see]
        cases Glob.accepts pattern key <;> rfl
  | close =>
      refine ⟨rfl, ?_⟩
      show Refines now store.shut { map with isOpen := false }
      rw [shut, if_pos isOpen]
      exact ⟨refines.options, rfl, fun isOpen => nomatch isOpen⟩
  | stats => exact ⟨rfl, refines⟩
  | increment key delta => exact refines.add isOpen key delta
  | decrement key delta => exact refines.add isOpen key (-delta)
  | setIfAbsent key value ttl =>
      have there : (map.see now key).isSome = (store.live? now key).isSome := by
        rw [shows, Option.isSome_map]
      unfold Store.carryOut TtlMap.carryOut writeIfAbsent
      dsimp only
      rw [there]
      split
      · exact ⟨rfl, refines⟩
      · exact ⟨rfl, refines.write key value ttl⟩
  | getMany keys =>
      refine ⟨?_, refines.alike (readMany_alike now keys .empty store)⟩
      show Except.ok (readMany now keys .empty store).1 = Except.ok _
      rw [readMany_fst, Table.ofList]
      congr 2
      refine congrArg (List.filterMap · keys) (funext fun key => ?_)
      rw [shows, Option.map_map]
      rfl
  | setMany entries ttl => exact ⟨rfl, refines.writeMany ttl entries.pairs⟩
  | remaining key =>
      rw [carryOut_remaining, TtlMap.carryOut_remaining]
      refine ⟨?_, refines⟩
      show Option.elim _ _ _ = Option.elim _ _ _
      rw [shows]
      cases store.live? now key with
      | none => rfl
      | some entry =>
          refine congrArg Except.ok ?_
          rw [Cell.remaining, Entry.remaining, Entry.cell, Option.map_map]
          rfl

/-- **Every call** gives the same answer on both sides and keeps the relation. -/
theorem Refines.perform (refines : Refines now store map) (standing : Standing) (op : Operation) :
    AgreeOn store now op (store.perform now standing op).1 (map.perform now standing op).1 ∧
      Refines now (store.perform now standing op).2 (map.perform now standing op).2 := by
  unfold Store.perform TtlMap.perform refusal?
  rw [refines.isOpen]
  cases isOpen : store.isOpen with
  | true =>
      simp only [if_true]
      split
      · cases standing.failure? with
        | none => exact refines.carryOut isOpen op
        | some failure => exact ⟨agreeOn_error store now op failure, refines⟩
      · exact refines.carryOut isOpen op
  | false =>
      cases op with
      | close =>
          refine ⟨rfl, ?_⟩
          show Refines now store.shut { map with isOpen := false }
          rw [shut, if_neg (by rw [isOpen]; exact Bool.false_ne_true)]
          exact ⟨refines.options, isOpen.symm,
            fun there => absurd (isOpen.symm.trans there) Bool.false_ne_true⟩
      | _ => exact ⟨rfl, refines⟩

end Store

/-! ### Runs -/

/-- Two turns are the same call at the same moment, and the answers agree. -/
inductive Turn.Agree {τ : Type} : Turn Store → Turn τ → Prop
  | intro {now : Nat} {standing : Standing} {store : Store} {state : τ} {op : Operation}
      {answer other : op.Answer} (agree : store.AgreeOn now op answer other) :
      Agree ⟨now, standing, store, op, answer⟩ ⟨now, standing, state, op, other⟩

/-- **A local backend is a TTL map.**  Whatever is called, however much time passes in between, and
whenever the store is swept, a store and a TTL map that both start empty answer all calls alike. -/
theorem Store.run_agrees_with_ttlMap (options : Options) (now : Nat) (events : List Event) :
    List.Forall₂ Turn.Agree (Store.machine.run now (.fresh options) events)
      (TtlMap.machine.run now (.fresh options) events) := by
  refine Machine.run_forall₂ Store.machine TtlMap.machine Store.Refines ?_ ?_ ?_
    (Store.refines_fresh now options) events
  · intro now store map standing op refines
    obtain ⟨agree, refines'⟩ := refines.perform standing op
    exact ⟨.intro agree, refines'⟩
  · intro now later store map le refines
    exact refines.later le
  · intro now store map refines
    exact refines.alike (store.sweep_alike now)

end TimedCache
