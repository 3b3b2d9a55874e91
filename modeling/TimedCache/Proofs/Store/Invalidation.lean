import TimedCache.Proofs.Glob.Escape
import TimedCache.Proofs.Store.Frame

/-!
# Invalidation is exact

An invalidation takes away the entries whose logical keys its pattern accepts, expired ones included, and
leaves all others as they are.  It answers with the number of entries that it has taken away, and counts
them as deleted (`Store.reach_invalidatesExactly`).

**The namespace.**  A pattern is matched against logical keys, so an entry that is filed outside the
namespace would be out of reach.  There is none: whatever writes files under a full key
(`Store.Filed.perform`), and nothing else puts an entry into the table.  So a flush leaves nothing.

**Listing.**  Removal is defined in one go.  It may as well list the keys of the doomed entries first, and
then remove them one by one and count those that it finds (`Store.removeListed`): no key is listed twice,
and every listed key is still there when its turn comes (`Store.removeListed_eq_removeAll`).

**Several patterns**, one after another, take away what any of them accepts, and each entry is counted by
the first of them that accepts it (`Store.reach_invalidations`).  So their order does not matter.

## Main Definitions

* `Store.Filed` — all entries lie in the namespace
* `Store.LosesExactly` — the entries of certain keys are taken away, and no others
* `Store.removeListed` — removal in two phases
* `Turn.invalidated` — the number that an invalidation answers with
* `Store.InvalidatesExactly` — what invalidations and flushes do to an open store
-/

namespace TimedCache

/-- The number that an invalidation has answered with. -/
def Turn.invalidated : Turn Store → Nat
  | ⟨_, _, _, .invalidate _, .ok count⟩ => count
  | _ => 0

/-- Whether an operation does nothing but take away what some keys have. -/
def Operation.isRemoval : Operation → Bool
  | .delete _ | .flush | .invalidate _ => true
  | _ => false

namespace Store

variable {store after : Store} {now : Nat} {selected : Bytes → Bool}

/-! ### The namespace -/

/-- Every entry is filed in the namespace of these options. -/
structure Filed (given : Options) (store : Store) : Prop where
  options : store.options = given
  keys : ∀ full ∈ store.entries.keys, given.namespaceText <+: full

variable {options : Options}

theorem filed_fresh (options : Options) : Filed options (.fresh options) :=
  ⟨rfl, fun _ mem => nomatch mem⟩

theorem Filed.onlyRemoves (filed : store.Filed options) (removes : OnlyRemoves store after) :
    after.Filed options :=
  ⟨removes.options.trans filed.options, fun full mem =>
    filed.keys full (Table.mem_keys_iff.mpr (removes.contains (Table.mem_keys_iff.mp mem)))⟩

/-- What is written under a full key is filed in the namespace. -/
theorem Filed.insert (filed : store.Filed options) (key : Bytes) (entry : Entry) (ledger : Ledger) :
    Filed options { store with
      entries := store.entries.insert (store.options.fullKey key) entry, ledger } := by
  refine ⟨filed.options, fun full mem => ?_⟩
  have there : (store.entries.insert (store.options.fullKey key) entry).contains full = true :=
    Table.mem_keys_iff.mp mem
  rw [Table.contains_insert, Bool.or_eq_true, decide_eq_true_eq] at there
  rcases there with rfl | there
  · rw [filed.options]
    exact List.prefix_append options.namespaceText key
  · exact filed.keys full (Table.mem_keys_iff.mpr there)

theorem Filed.writeMany (filed : store.Filed options) (now : Nat) (ttl : Duration)
    (pairs : List (Bytes × Bytes)) : (Store.writeMany now ttl pairs store).Filed options := by
  induction pairs generalizing store with
  | nil => exact filed
  | cons pair pairs ih => exact ih (filed.insert pair.1 _ _)

theorem Filed.add (filed : store.Filed options) (now : Nat) (key : Bytes) (delta : Int) :
    (store.add now key delta).2.Filed options := by
  obtain ⟨_, failed⟩ | ⟨_, counter, counted⟩ := store.add_cases now key delta
  · rw [failed]
    exact filed
  · rw [counted]
    exact filed.insert key counter store.ledger

theorem Filed.carryOut (filed : store.Filed options) (now : Nat) (op : Operation) :
    (store.carryOut now op).2.Filed options := by
  cases puts : op.puts with
  | false => exact filed.onlyRemoves (store.carryOut_onlyRemoves now puts)
  | true =>
      cases op with
      | set key value ttl => exact filed.insert key _ _
      | setIfAbsent key value ttl =>
          rw [carryOut_setIfAbsent]
          split
          · exact filed
          · exact filed.insert key _ _
      | setMany entries ttl => exact filed.writeMany now ttl entries.pairs
      | increment key delta => exact filed.add now key delta
      | decrement key delta => exact filed.add now key (-delta)
      | get _ | delete _ | has _ | flush | invalidate _ | close | stats | getMany _
      | remaining _ => cases puts

/-- **Every operation files in the namespace.** -/
theorem Filed.perform (filed : store.Filed options) (now : Nat) (standing : Standing)
    (op : Operation) : (store.perform now standing op).2.Filed options := by
  unfold Store.perform
  split
  · split
    · exact filed
    · exact filed.carryOut now op
  · exact filed.carryOut now op

theorem Filed.happen (filed : store.Filed options) (now : Nat) (event : Event) :
    (machine.happen now store event).2.Filed options := by
  cases event with
  | call standing op => exact filed.perform now standing op
  | advance millis => exact filed
  | sweep => exact filed.onlyRemoves (store.sweep_onlyRemoves now)

/-- Whatever happens to a store, all its entries lie in the namespace. -/
theorem Filed.reach (filed : store.Filed options) (now : Nat) (events : List Event) :
    (machine.reach now store events).2.Filed options := by
  induction events generalizing now store with
  | nil => exact filed
  | cons event events ih => exact ih (filed.happen now event) _

/-! ### Removing what is selected -/

/-- Exactly the selected entries are taken away. -/
theorem find?_removeAll_eq_some_iff {full : Bytes} {entry : Entry} :
    (store.removeAll selected).2.entries.find? full = some entry ↔
      store.entries.find? full = some entry ∧
        ∀ key, full = store.options.fullKey key → selected key = false := by
  have kept : (store.removeAll selected).2.entries.find? full =
      (store.entries.find? full).filter fun _ => !store.selects selected full :=
    Table.find?_filter _ _ _
  rw [kept, Option.filter_eq_some_iff, Bool.not_eq_true']
  refine and_congr_right fun _ => ?_
  rw [← Bool.not_eq_true, selects_eq_true_iff, not_exists]
  refine forall_congr' fun key => ?_
  rw [not_and, Bool.not_eq_true, eq_comm]

/-- From the first store to the second, **exactly the entries of certain keys are lost**. -/
structure LosesExactly (gone : Bytes → Prop) (before after : Store) : Prop where
  options : after.options = before.options
  isOpen : after.isOpen = before.isOpen
  kept : ∀ {full entry}, after.entries.find? full = some entry ↔
    before.entries.find? full = some entry ∧ ∀ key, full = before.options.fullKey key → ¬gone key

namespace LosesExactly

variable {gone more : Bytes → Prop} {before : Store}

theorem refl (store : Store) : LosesExactly (fun _ => False) store store :=
  ⟨rfl, rfl, fun {_ _} => ⟨fun found => ⟨found, fun _ _ => id⟩, And.left⟩⟩

/-- What is lost first and what is lost then. -/
theorem trans (first : LosesExactly gone before store) (second : LosesExactly more store after) :
    LosesExactly (fun key => gone key ∨ more key) before after := by
  refine ⟨second.options.trans first.options, second.isOpen.trans first.isOpen, fun {_ _} => ?_⟩
  rw [second.kept, first.kept, first.options]
  constructor
  · rintro ⟨⟨found, first⟩, then_⟩
    exact ⟨found, fun key filed => not_or.mpr ⟨first key filed, then_ key filed⟩⟩
  · rintro ⟨found, kept⟩
    exact ⟨⟨found, fun key filed => (not_or.mp (kept key filed)).1⟩,
      fun key filed => (not_or.mp (kept key filed)).2⟩

theorem congr (loses : LosesExactly gone before after) (same : ∀ key, gone key ↔ more key) :
    LosesExactly more before after := by
  obtain rfl : gone = more := funext fun key => propext (same key)
  exact loses

/-- Nothing is left of a key whose entry is lost. -/
theorem find?_eq_none (loses : LosesExactly gone before after) {key : Bytes} (lost : gone key) :
    after.entries.find? (after.options.fullKey key) = none := by
  cases found : after.entries.find? (after.options.fullKey key) with
  | none => rfl
  | some entry =>
      rw [loses.options] at found
      exact absurd lost ((loses.kept.mp found).2 key rfl)

end LosesExactly

/-- **Deletions and invalidations** take away exactly the entries of the keys that they clear. -/
theorem carryOut_removal (store : Store) (now : Nat) {op : Operation} (removal : op.isRemoval = true) :
    (∃ value, (store.carryOut now op).1 = .ok value) ∧
      LosesExactly (fun key => op.clears key = true) store (store.carryOut now op).2 := by
  have selected (selected : Bytes → Bool) :
      LosesExactly (fun key => selected key = true) store (store.removeAll selected).2 := by
    refine ⟨rfl, rfl, fun {_ _} => ?_⟩
    simp only [find?_removeAll_eq_some_iff, Bool.not_eq_true]
  cases op with
  | delete key =>
      obtain ⟨options, isOpen⟩ := store.remove_kept key
      refine ⟨⟨(), rfl⟩, options, isOpen, fun {full entry} => ?_⟩
      show (store.remove key).entries.find? full = some entry ↔ _
      rw [find?_remove]
      constructor
      · intro found
        split at found
        next => cases found
        next ne => exact ⟨found, fun other filed same => ne (of_decide_eq_true same ▸ filed)⟩
      · rintro ⟨found, kept⟩
        rw [if_neg fun filed => kept key filed (decide_eq_true rfl)]
        exact found
  | flush => exact ⟨⟨(), rfl⟩, selected _⟩
  | invalidate pattern => exact ⟨⟨_, rfl⟩, selected _⟩
  | close | get _ | set _ _ _ | has _ | stats | increment _ _ | decrement _ _ | setIfAbsent _ _ _
  | getMany _ | setMany _ _ | remaining _ => cases removal

/-- The number of selected entries is the number of selected logical keys. -/
theorem removeAll_fst_eq_countP (store : Store) (selected : Bytes → Bool) :
    (store.removeAll selected).1 = store.logicalKeys.countP selected := by
  show (store.entries.pairs.filter fun pair => store.selects selected pair.1).length = _
  rw [logicalKeys, Table.keys, List.filterMap_map, ← List.countP_eq_length_filter,
    List.countP_filterMap]
  refine List.countP_congr fun pair _ => ?_
  rw [selects, Function.comp_apply]
  cases store.options.logicalKey? pair.1 <;> rfl

theorem size_removeAll_add (store : Store) (selected : Bytes → Bool) :
    (store.removeAll selected).2.size + (store.removeAll selected).1 = store.size :=
  ((store.entries.size_eq_add fun full _ => store.selects selected full).trans
    (Nat.add_comm _ _)).symm

/-- Removing twice is removing once what either of the two selects. -/
theorem removeAll_removeAll (store : Store) (selected other : Bytes → Bool) :
    ((store.removeAll selected).2.removeAll other).2 =
        (store.removeAll fun key => selected key || other key).2 ∧
      (store.removeAll selected).1 + ((store.removeAll selected).2.removeAll other).1 =
        (store.removeAll fun key => selected key || other key).1 := by
  have either : ∀ full, store.selects (fun key => selected key || other key) full =
      (store.selects selected full || store.selects other full) := by
    intro full
    unfold selects
    cases store.options.logicalKey? full <;> rfl
  -- The second removal counts what the first has left.
  have second : ((store.removeAll selected).2.removeAll other).1 =
      (store.entries.filter fun full _ =>
        !store.selects selected full && store.selects other full).size :=
    congrArg Table.size (store.entries.filter_filter (fun full _ => !store.selects selected full)
      (fun full _ => store.selects other full))
  have count : (store.removeAll selected).1 + ((store.removeAll selected).2.removeAll other).1 =
      (store.removeAll fun key => selected key || other key).1 := by
    have split := store.entries.size_filter_add
      (fun full _ => store.selects selected full || store.selects other full)
      (fun full _ => store.selects selected full)
    have first : ∀ a b : Bool, (a && (a || b)) = a := by decide
    have others : ∀ a b : Bool, (!a && (a || b)) = (!a && b) := by decide
    simp only [first, others] at split
    rw [second]
    simp only [removeAll, either]
    exact split.symm
  have entries : ((store.removeAll selected).2.removeAll other).2.entries =
      (store.removeAll fun key => selected key || other key).2.entries := by
    refine (store.entries.filter_filter (fun full _ => !store.selects selected full)
      (fun full _ => !store.selects other full)).trans ?_
    simp only [removeAll, either, Bool.not_or]
  have ledger : ((store.removeAll selected).2.removeAll other).2.ledger =
      (store.removeAll fun key => selected key || other key).2.ledger := by
    show (store.ledger.delete (store.removeAll selected).1).delete
      ((store.removeAll selected).2.removeAll other).1 =
        store.ledger.delete (store.removeAll fun key => selected key || other key).1
    rw [← count, Ledger.delete, Ledger.delete, Ledger.delete, Nat.add_assoc]
  exact ⟨congrArg₂ (fun entries ledger => { store with entries, ledger }) entries ledger, count⟩

/-! ### Removing in two phases -/

/-- Removes the listed entries one by one, and counts those that it finds. -/
def removeEach : (listed : List Bytes) → Table Entry → Nat × Table Entry
  | [], entries => (0, entries)
  | full :: listed, entries =>
    let (count, left) := removeEach listed (entries.erase full)
    ((if entries.contains full then 1 else 0) + count, left)

/-- Removes all entries whose logical keys are selected: their keys are listed first, and then they are
removed one by one. -/
def removeListed (store : Store) (selected : Bytes → Bool) : Nat × Store :=
  let (count, left) :=
    removeEach (store.entries.keys.filter (store.selects selected)) store.entries
  (count, { store with entries := left, ledger := store.ledger.delete count })

/-- Keys that are listed once, and are there, are all found. -/
theorem removeEach_eq {listed : List Bytes} (distinct : listed.Nodup) {entries : Table Entry}
    (there : ∀ full ∈ listed, entries.contains full = true) :
    removeEach listed entries =
      (listed.length, entries.filter fun full _ => !listed.contains full) := by
  induction listed generalizing entries with
  | nil => exact congrArg (0, ·) entries.filter_true.symm
  | cons head listed ih =>
      obtain ⟨once, distinct⟩ := List.nodup_cons.mp distinct
      obtain ⟨first, there⟩ := List.forall_mem_cons.mp there
      have rest : ∀ full ∈ listed, (entries.erase head).contains full = true := by
        intro full mem
        have ne : full ≠ head := fun same => once (same ▸ mem)
        rw [Table.contains, Table.find?_erase, if_neg ne]
        exact there full mem
      have kept : (entries.erase head).filter (fun full _ => !listed.contains full) =
          entries.filter fun full _ => !(head :: listed).contains full := by
        refine (entries.filter_filter _ _).trans ?_
        refine congrArg (Table.filter · entries) (funext fun full => funext fun _ => ?_)
        rw [List.contains_cons, Bool.not_or, beq_eq_decide, decide_not]
      rw [removeEach, ih distinct rest, if_pos first]
      show (1 + listed.length, (entries.erase head).filter _) = _
      rw [kept, Nat.add_comm, List.length_cons]

/-- **Removal may list first** what it is going to remove. -/
theorem removeListed_eq_removeAll (store : Store) (selected : Bytes → Bool) :
    store.removeListed selected = store.removeAll selected := by
  have distinct : (store.entries.keys.filter (store.selects selected)).Nodup :=
    store.entries.distinct.filter _
  have there : ∀ full ∈ store.entries.keys.filter (store.selects selected),
      store.entries.contains full = true := fun full mem =>
    Table.mem_keys_iff.mp (List.mem_of_mem_filter mem)
  have count : (store.entries.keys.filter (store.selects selected)).length =
      (store.removeAll selected).1 := by
    rw [Table.keys, List.filter_map, List.length_map]
    rfl
  have kept : (store.entries.filter fun full _ =>
      !(store.entries.keys.filter (store.selects selected)).contains full) =
        store.entries.filter fun full _ => !store.selects selected full := by
    refine Table.filter_congr fun pair mem => congrArg (!·) ?_
    have listed : pair.1 ∈ store.entries.keys := List.mem_map_of_mem mem
    rw [Bool.eq_iff_iff, List.contains_iff_mem, List.mem_filter, and_iff_right listed]
  rw [removeListed, removeEach_eq distinct there, kept, count]
  rfl

/-! ### Several patterns -/

/-- Selecting nothing removes nothing. -/
theorem removeAll_nothing (store : Store) : store.removeAll (fun _ => false) = (0, store) := by
  have none : ∀ full, store.selects (fun _ => false) full = false := by
    intro full
    unfold selects
    cases store.options.logicalKey? full <;> rfl
  have doomed : (store.entries.filter fun full _ => store.selects (fun _ => false) full) = .empty :=
    Table.filter_eq_empty fun pair _ => none pair.1
  have kept : (store.entries.filter fun full _ => !store.selects (fun _ => false) full) =
      store.entries := by
    simp only [none, Bool.not_false, Table.filter_true]
  rw [removeAll, doomed, kept]
  rfl

/-- Calls to invalidate by several patterns, one after another. -/
def invalidations (patterns : List Bytes) : List Event :=
  patterns.map fun pattern => .call .live (.invalidate pattern)

theorem perform_invalidate (isOpen : store.isOpen = true) (now : Nat) (pattern : Bytes) :
    store.perform now .live (.invalidate pattern) =
      (.ok (store.removeAll (Glob.accepts pattern)).1,
        (store.removeAll (Glob.accepts pattern)).2) :=
  perform_of_open isOpen now _

/-- **Several invalidations** remove, all in all, what any of the patterns accepts. -/
theorem reach_invalidations (isOpen : store.isOpen = true) (now : Nat) (patterns : List Bytes) :
    machine.reach now store (invalidations patterns) =
        (now, (store.removeAll fun key => patterns.any (Glob.accepts · key)).2) ∧
      ((machine.run now store (invalidations patterns)).map Turn.invalidated).sum =
        (store.removeAll fun key => patterns.any (Glob.accepts · key)).1 := by
  induction patterns generalizing store with
  | nil =>
      have none : (store.removeAll fun key => [].any (Glob.accepts · key)) = (0, store) :=
        store.removeAll_nothing
      rw [none]
      exact ⟨rfl, rfl⟩
  | cons pattern patterns ih =>
      obtain ⟨both, count⟩ := store.removeAll_removeAll (Glob.accepts pattern)
        fun key => patterns.any (Glob.accepts · key)
      have stillOpen : (store.removeAll (Glob.accepts pattern)).2.isOpen = true := isOpen
      obtain ⟨reached, total⟩ := ih stillOpen
      have step := perform_invalidate isOpen now pattern
      constructor
      · show machine.reach now (store.perform now .live (.invalidate pattern)).2
          (invalidations patterns) = _
        rw [step, reached, both]
        rfl
      · show Turn.invalidated ⟨now, .live, store, .invalidate pattern,
            (store.perform now .live (.invalidate pattern)).1⟩ +
          ((machine.run now (store.perform now .live (.invalidate pattern)).2
            (invalidations patterns)).map Turn.invalidated).sum = _
        rw [step]
        exact (congrArg _ total).trans count

/-! ### Whole runs -/

/-- What invalidations and flushes do to an open store with these options. -/
structure InvalidatesExactly (given : Options) (now : Nat) (store : Store) : Prop where
  /-- Every entry lies in the namespace. -/
  filed : store.Filed given
  /-- The entries whose logical keys are accepted are taken away, and all others stay as they are.  The
  answer is the number of entries that are gone, and they are counted as deleted. -/
  invalidate : ∀ pattern, ∃ count entries,
    store.perform now .live (.invalidate pattern) =
      (.ok count, { store with entries, ledger := store.ledger.delete count }) ∧
    (∀ full entry, entries.find? full = some entry ↔
      store.entries.find? full = some entry ∧
        ∀ key, full = given.fullKey key → Glob.accepts pattern key = false) ∧
    count = store.logicalKeys.countP (Glob.accepts pattern) ∧ entries.size + count = store.size
  /-- A flush leaves nothing, and it does what an invalidation by a single star does. -/
  flush : store.perform now .live .flush =
      (.ok (), { store with entries := .empty, ledger := store.ledger.delete store.size }) ∧
    (store.perform now .live (.invalidate (utf8 "*"))).2 = (store.perform now .live .flush).2
  /-- The keys may be listed first, and then removed one by one. -/
  listing : ∀ selected, store.removeListed selected = store.removeAll selected
  /-- The order of several patterns does not matter. -/
  order : ∀ {patterns others : List Bytes}, patterns.Perm others →
    machine.reach now store (invalidations patterns) =
        machine.reach now store (invalidations others) ∧
      ((machine.run now store (invalidations patterns)).map Turn.invalidated).sum =
        ((machine.run now store (invalidations others)).map Turn.invalidated).sum

/-- A flush removes every entry that lies in the namespace. -/
theorem Filed.removeAll_all (filed : store.Filed options) :
    (store.removeAll fun _ => true) =
      (store.size,
        { store with entries := .empty, ledger := store.ledger.delete store.size }) := by
  have chosen : ∀ pair ∈ store.entries.pairs, store.selects (fun _ => true) pair.1 = true := by
    intro pair mem
    obtain ⟨key, split⟩ := filed.keys pair.1 (List.mem_map_of_mem mem)
    rw [selects_eq_true_iff, filed.options]
    exact ⟨key, split, rfl⟩
  have kept : (store.entries.filter fun full _ => !store.selects (fun _ => true) full) = .empty :=
    Table.filter_eq_empty fun pair mem => by rw [chosen pair mem]; rfl
  have doomed : (store.entries.filter fun full _ => store.selects (fun _ => true) full) =
      store.entries :=
    (Table.filter_congr chosen).trans store.entries.filter_true
  rw [removeAll, kept, doomed]
  rfl

/-- **Invalidation is exact**, whatever has happened to a store that is still open. -/
theorem reach_invalidatesExactly (options : Options) (start : Nat) (events : List Event)
    (isOpen : (machine.reach start (.fresh options) events).2.isOpen = true) :
    InvalidatesExactly options (machine.reach start (.fresh options) events).1
      (machine.reach start (.fresh options) events).2 := by
  have filed := (filed_fresh options).reach start events
  generalize (machine.reach start (.fresh options) events).2 = store at filed isOpen
  generalize (machine.reach start (.fresh options) events).1 = now
  refine ⟨filed, fun pattern => ?_, ?_, store.removeListed_eq_removeAll, ?_⟩
  · refine ⟨_, _, perform_invalidate isOpen now pattern, fun full entry => ?_,
      store.removeAll_fst_eq_countP _, store.size_removeAll_add _⟩
    rw [← filed.options]
    exact find?_removeAll_eq_some_iff
  · have star : Glob.accepts (utf8 "*") = fun _ => true := funext Glob.accepts_star
    have flushed : store.perform now .live .flush = (.ok (), (store.removeAll fun _ => true).2) :=
      perform_of_open isOpen now _
    rw [perform_invalidate isOpen, star, flushed, filed.removeAll_all]
    exact ⟨rfl, rfl⟩
  · intro patterns others perm
    have same : (fun key => patterns.any (Glob.accepts · key)) =
        fun key => others.any (Glob.accepts · key) := funext fun key => perm.any_eq
    obtain ⟨reached, total⟩ := reach_invalidations isOpen now patterns
    obtain ⟨reached', total'⟩ := reach_invalidations isOpen now others
    rw [reached, reached', total, total', same]
    exact ⟨rfl, rfl⟩

/-- A namespace that would be a pattern, if it were one. -/
def patternNamespace : Options := ⟨.ofSecs 300, 10, utf8 "u[*"⟩

/-- Entries by all ways of writing, of which one has expired. -/
def filingRun : List Event :=
  [.call .live (.set (utf8 "user:1") (utf8 "a") (.ofMillis 5)),
    .call .live (.setIfAbsent (utf8 "user:2") (utf8 "b") .zero),
    .call .live (.setMany (.ofList [(utf8 "page", utf8 "c"), (utf8 "user:3", utf8 "d")]) .zero),
    .call .live (.increment (utf8 "u[*") 1),
    .advance 5]

/-- Of five entries three are for users, one of which has expired. -/
theorem reach_invalidatesExactly_filingRun :
    let reached := machine.reach 1000 (.fresh patternNamespace) filingRun
    reached.2.isOpen = true ∧ reached.2.size = 5 ∧
      (reached.2.perform reached.1 .live (.invalidate (utf8 "user:*"))).1.toOption = some 3 ∧
      InvalidatesExactly patternNamespace reached.1 reached.2 := by
  have isOpen : (machine.reach 1000 (.fresh patternNamespace) filingRun).2.isOpen = true := by
    decide +kernel
  exact ⟨isOpen, by decide +kernel, by decide +kernel,
    reach_invalidatesExactly patternNamespace 1000 filingRun isOpen⟩

end Store

end TimedCache
