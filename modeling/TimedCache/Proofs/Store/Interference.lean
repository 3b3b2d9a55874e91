import TimedCache.Proofs.Store.Ledger

/-!
# Reclaiming under interference

Sweeps and reads that reclaim expired entries do so in several **atomic steps** on the table, and
between two of them anything may happen: other clients write and delete, other sweeps and reads make
their steps, and time passes.

**Steps.**  A sweep reads the clock, tests one key after another against that reading and lists the
expired ones; then it removes each listed key if its entry is expired *at that moment*.  Which keys a
sweep comes past is for the table to say, so a sweep is given any list of keys to visit.  A read looks
at its key once, and if the entry is expired it removes the key under the same condition.

**What a step can do** is said once (`Reclaimer.step_cases`): it leaves the table as it is, or it
erases one entry that is expired at that moment, and counts it.  All else follows by induction over
the moves of a run.

## Main Definitions

* `Reclaimer`, `Reclaimer.step` — a sweep or a read under way, and its next step
* `Arena`, `Move` — a table with those at work on it, and what can happen there
* `Arena.Takes` — a move takes away the entry of a key
* `Arena.Orderly` — what is safe about a run
-/

namespace TimedCache

/-! ### Sweeps and reads -/

/-- Whether a key has an entry that is expired at some moment. -/
def Table.hasExpired (entries : Table Entry) (now : Nat) (full : Bytes) : Bool :=
  (entries.find? full).any fun entry => entry.isExpired now

/-- A sweep or a read, by what is left to do, with the number of entries that it has removed. -/
inductive Reclaimer where
  /-- A sweep that has not begun, and will come past these keys. -/
  | sweeping (visits : List Bytes)
  /-- A sweep that lists what was expired when it began. -/
  | listing (began : Nat) (ahead listed : List Bytes)
  /-- A sweep that removes what it has listed. -/
  | removing (ahead : List Bytes) (removed : Nat)
  /-- A sweep that has returned. -/
  | swept (removed : Nat)
  /-- A read that has not looked at its key yet. -/
  | reading (full : Bytes)
  /-- A read that has met an expired entry. -/
  | doubting (full : Bytes)
  /-- A read that has returned. -/
  | answered (value : Option Bytes) (removed : Nat)
  deriving DecidableEq, Repr

namespace Reclaimer

/-- The next step, at `now`: what is left to do behind it, and the table. -/
def step (now : Nat) (entries : Table Entry) : Reclaimer → Reclaimer × Table Entry
  | sweeping visits => (listing now visits [], entries)
  | listing _ [] listed => (removing listed 0, entries)
  | listing began (full :: ahead) listed =>
    (listing began ahead (if entries.hasExpired began full then listed ++ [full] else listed), entries)
  | removing [] removed => (swept removed, entries)
  | removing (full :: ahead) removed =>
    let (gone, entries) := removeIfExpired entries now full
    (removing ahead (removed + if gone then 1 else 0), entries)
  | swept removed => (swept removed, entries)
  | reading full =>
    match entries.find? full with
    | none => (answered none 0, entries)
    | some entry =>
      (if entry.isExpired now then doubting full else answered (some entry.value) 0, entries)
  | doubting full =>
    let (gone, entries) := removeIfExpired entries now full
    (answered none (if gone then 1 else 0), entries)
  | answered value removed => (answered value removed, entries)

/-- How many entries have been removed so far. -/
def counted : Reclaimer → Nat
  | removing _ removed | swept removed | answered _ removed => removed
  | _ => 0

/-- How many steps are left at most. -/
def left : Reclaimer → Nat
  | sweeping visits => 2 * visits.length + 3
  | listing _ ahead listed => 2 * ahead.length + listed.length + 2
  | removing ahead _ => ahead.length + 1
  | reading _ => 2
  | doubting _ => 1
  | swept _ | answered _ _ => 0

/-- Whether this is a sweep. -/
def isSweep : Reclaimer → Bool
  | reading _ | doubting _ | answered _ _ => false
  | _ => true

/-- **What a step can do:** nothing to the table, or it erases one entry that is expired now, and
counts it. -/
theorem step_cases (now : Nat) (entries : Table Entry) (reclaimer : Reclaimer) :
    ((reclaimer.step now entries).2 = entries ∧
        (reclaimer.step now entries).1.counted = reclaimer.counted) ∨
      ∃ full entry, entries.find? full = some entry ∧ entry.isExpired now = true ∧
        (reclaimer.step now entries).2 = entries.erase full ∧
        (reclaimer.step now entries).1.counted = reclaimer.counted + 1 := by
  cases reclaimer with
  | sweeping visits => exact .inl ⟨rfl, rfl⟩
  | listing began ahead listed => cases ahead <;> exact .inl ⟨rfl, rfl⟩
  | removing ahead removed =>
      cases ahead with
      | nil => exact .inl ⟨rfl, rfl⟩
      | cons full ahead =>
          obtain kept | ⟨entry, found, expired, erased⟩ := Table.removeIfExpired_cases entries now full
          · exact .inl (by simp [step, counted, kept])
          · exact .inr ⟨full, entry, found, expired, by simp [step, counted, erased]⟩
  | swept removed => exact .inl ⟨rfl, rfl⟩
  | reading full =>
      left
      simp only [step]
      split
      · exact ⟨rfl, rfl⟩
      · split <;> exact ⟨rfl, rfl⟩
  | doubting full =>
      obtain kept | ⟨entry, found, expired, erased⟩ := Table.removeIfExpired_cases entries now full
      · exact .inl (by simp [step, counted, kept])
      · exact .inr ⟨full, entry, found, expired, by simp [step, counted, erased]⟩
  | answered value removed => exact .inl ⟨rfl, rfl⟩

/-- A step makes what is left to do less, and a sweep stays a sweep. -/
theorem step_left (now : Nat) (entries : Table Entry) (reclaimer : Reclaimer) :
    (reclaimer.step now entries).1.left ≤ reclaimer.left - 1 ∧
      (reclaimer.step now entries).1.isSweep = reclaimer.isSweep := by
  cases reclaimer with
  | listing began ahead listed =>
      cases ahead with
      | nil => exact ⟨by simp [step, left], rfl⟩
      | cons full ahead =>
          refine ⟨?_, rfl⟩
          simp only [step, left]
          split <;> simp only [List.length_cons, List.length_append, List.length_nil] <;> omega
  | removing ahead removed => cases ahead <;> exact ⟨by simp [step, left], rfl⟩
  | reading full =>
      simp only [step]
      split
      · exact ⟨Nat.zero_le _, rfl⟩
      · split
        · exact ⟨Nat.le_refl 1, rfl⟩
        · exact ⟨Nat.zero_le _, rfl⟩
  | sweeping visits => exact ⟨by simp [step, left], rfl⟩
  | swept removed => exact ⟨Nat.le_refl 0, rfl⟩
  | doubting full => exact ⟨Nat.le_refl 0, rfl⟩
  | answered value removed => exact ⟨Nat.le_refl 0, rfl⟩

/-- A sweep with nothing left to do has returned. -/
theorem eq_swept_of_left {reclaimer : Reclaimer} (sweep : reclaimer.isSweep = true)
    (left : reclaimer.left = 0) : ∃ removed, reclaimer = .swept removed := by
  cases reclaimer with
  | swept removed => exact ⟨removed, rfl⟩
  | reading full => cases sweep
  | doubting full => cases sweep
  | answered value removed => cases sweep
  | sweeping visits => cases left
  | listing began ahead listed => cases left
  | removing ahead removed => cases left

end Reclaimer

/-! ### Arenas -/

/-- A table at some moment, with the sweeps and reads that are under way on it. -/
structure Arena where
  now : Nat
  entries : Table Entry
  reclaimers : List Reclaimer

/-- What can happen to a table: those who reclaim begin or make a step, others write and delete, and
time passes. -/
inductive Move where
  | sweep (visits : List Bytes)
  | read (full : Bytes)
  | work (index : Nat)
  | write (full : Bytes) (entry : Entry)
  | erase (full : Bytes)
  | advance (millis : Nat)
  deriving DecidableEq

/-- Whether another client writes or deletes the entry of a key. -/
def Move.touches (full : Bytes) : Move → Bool
  | .write other _ | .erase other => other = full
  | _ => false

namespace Arena

/-- The arena behind a move. -/
def apply (arena : Arena) : Move → Arena
  | .sweep visits => { arena with reclaimers := arena.reclaimers ++ [.sweeping visits] }
  | .read full => { arena with reclaimers := arena.reclaimers ++ [.reading full] }
  | .work index =>
    match arena.reclaimers[index]? with
    | none => arena
    | some reclaimer =>
      let (next, entries) := reclaimer.step arena.now arena.entries
      { arena with entries := entries, reclaimers := arena.reclaimers.set index next }
  | .write full entry => { arena with entries := arena.entries.insert full entry }
  | .erase full => { arena with entries := arena.entries.erase full }
  | .advance millis => { arena with now := arena.now + millis }

/-- The arena behind some moves. -/
def reach : Arena → List Move → Arena
  | arena, [] => arena
  | arena, move :: moves => (arena.apply move).reach moves

/-- The move takes away the entry of a key. -/
def Takes (arena : Arena) (move : Move) (full : Bytes) : Prop :=
  arena.entries.contains full = true ∧ (arena.apply move).entries.contains full = false

/-- How many entries the steps of one reclaimer take away. -/
def takenBy (index : Nat) : Arena → List Move → Nat
  | _, [] => 0
  | arena, move :: moves =>
    (if move = .work index then (arena.entries.gone (arena.apply move).entries).size else 0) +
      (arena.apply move).takenBy index moves

variable {arena : Arena}

/-- Where nobody is at work nothing is done; else a step is made. -/
theorem apply_work (arena : Arena) (index : Nat) :
    (arena.reclaimers[index]? = none ∧ arena.apply (.work index) = arena) ∨
      ∃ reclaimer, arena.reclaimers[index]? = some reclaimer ∧ arena.apply (.work index) =
        ⟨arena.now, (reclaimer.step arena.now arena.entries).2,
          arena.reclaimers.set index (reclaimer.step arena.now arena.entries).1⟩ := by
  cases there : arena.reclaimers[index]? with
  | none => exact .inl ⟨rfl, by simp only [apply, there]⟩
  | some reclaimer => exact .inr ⟨reclaimer, rfl, by simp only [apply, there]⟩

/-- The clock never goes back. -/
theorem now_le_apply (arena : Arena) (move : Move) : arena.now ≤ (arena.apply move).now := by
  cases move with
  | work index =>
      obtain ⟨-, same⟩ | ⟨reclaimer, -, stepped⟩ := arena.apply_work index
      · rw [same]
      · rw [stepped]
  | advance millis => exact Nat.le_add_right arena.now millis
  | sweep _ | read _ | write _ _ | erase _ => exact Nat.le_refl arena.now

theorem now_le_reach (arena : Arena) (moves : List Move) : arena.now ≤ (arena.reach moves).now := by
  induction moves generalizing arena with
  | nil => exact Nat.le_refl arena.now
  | cons move moves ih => exact (arena.now_le_apply move).trans (ih (arena.apply move))

/-! ### What is removed -/

/-- **A step of a reclaimer** takes nothing away but what is expired. -/
theorem apply_work_reclaimed (arena : Arena) (index : Nat) :
    arena.entries.Reclaimed arena.now (arena.apply (.work index)).entries := by
  obtain ⟨-, same⟩ | ⟨reclaimer, -, stepped⟩ := arena.apply_work index
  · rw [same]
    exact .refl arena.now arena.entries
  · rw [stepped]
    obtain ⟨kept, -⟩ | ⟨full, entry, found, expired, erased, -⟩ :=
      reclaimer.step_cases arena.now arena.entries
    · rw [kept]
      exact .refl arena.now arena.entries
    · rw [erased]
      exact Table.erase_reclaimed found expired

/-- Moves that do not touch a key leave its entry alone, or remove it when it has expired. -/
theorem find?_apply (arena : Arena) {move : Move} {full : Bytes}
    (spares : move.touches full = false) :
    (arena.apply move).entries.find? full = arena.entries.find? full ∨
      ((arena.apply move).entries.find? full = none ∧
        ∃ entry, arena.entries.find? full = some entry ∧ entry.isExpired arena.now = true) := by
  cases move with
  | work index => exact arena.apply_work_reclaimed index full
  | write other entry =>
      have ne : full ≠ other := fun same => of_decide_eq_false spares same.symm
      exact .inl ((Table.find?_insert other full entry arena.entries).trans (if_neg ne))
  | erase other =>
      have ne : full ≠ other := fun same => of_decide_eq_false spares same.symm
      exact .inl ((Table.find?_erase other full arena.entries).trans (if_neg ne))
  | sweep _ | read _ | advance _ => exact .inl rfl

/-- **A live entry stays** where it was written, as long as nobody touches it. -/
theorem find?_reach {full : Bytes} {entry : Entry} {moves : List Move}
    (found : arena.entries.find? full = some entry)
    (spared : ∀ move ∈ moves, move.touches full = false)
    (live : entry.isExpired (arena.reach moves).now = false) :
    (arena.reach moves).entries.find? full = some entry := by
  induction moves generalizing arena with
  | nil => exact found
  | cons move moves ih =>
      have first := spared move List.mem_cons_self
      refine ih ?_ (fun move mem => spared move (List.mem_cons_of_mem _ mem)) live
      obtain same | ⟨-, other, found', expired⟩ := arena.find?_apply first
      · exact same.trans found
      · -- What had expired by now would have expired by the end of the moves.
        cases found.symm.trans found'
        have le : arena.now ≤ (arena.reach (move :: moves)).now := now_le_reach arena (move :: moves)
        rw [Entry.isExpired_mono le expired] at live
        cases live

/-- What is not there can only be put there by a write. -/
theorem contains_reach {full : Bytes} {moves : List Move}
    (absent : arena.entries.contains full = false)
    (there : (arena.reach moves).entries.contains full = true) :
    ∃ entry, Move.write full entry ∈ moves := by
  induction moves generalizing arena with
  | nil => exact absurd (absent.symm.trans there) Bool.false_ne_true
  | cons move moves ih =>
      by_cases later : (arena.apply move).entries.contains full = false
      · obtain ⟨entry, mem⟩ := ih later there
        exact ⟨entry, List.mem_cons_of_mem _ mem⟩
      · have none_ : arena.entries.find? full = none := by
          simpa [Table.contains] using absent
        by_cases spares : move.touches full = false
        · obtain same | ⟨gone, -⟩ := arena.find?_apply spares
          · rw [Table.contains, same, none_] at later
            exact absurd rfl later
          · rw [Table.contains, gone] at later
            exact absurd rfl later
        · cases move with
          | write other entry =>
              obtain rfl : other = full := by simpa [Move.touches] using spares
              exact ⟨entry, List.mem_cons_self⟩
          | erase other =>
              obtain rfl : other = full := by simpa [Move.touches] using spares
              rw [Table.contains, apply, Table.find?_erase, if_pos rfl] at later
              exact absurd rfl later
          | sweep _ | read _ | work _ | advance _ => exact absurd rfl spares

/-! ### What is counted -/

/-- The count of one of those at work; nobody has counted anything before it began. -/
def countOf (arena : Arena) (index : Nat) : Nat :=
  (arena.reclaimers[index]?).elim 0 Reclaimer.counted

/-- Who begins has counted nothing. -/
theorem countOf_begin (arena : Arena) {reclaimer : Reclaimer} (none_ : reclaimer.counted = 0)
    (index : Nat) :
    countOf { arena with reclaimers := arena.reclaimers ++ [reclaimer] } index =
      arena.countOf index := by
  unfold countOf
  rw [List.getElem?_append]
  split
  · rfl
  · next beyond =>
      rw [List.getElem?_eq_none (Nat.le_of_not_lt beyond)]
      cases at_ : index - arena.reclaimers.length with
      | zero => simpa using none_
      | succ n => rfl

/-- Each move adds to a count what it takes away, if it is a step of that reclaimer. -/
theorem countOf_apply (arena : Arena) (move : Move) (index : Nat) :
    (arena.apply move).countOf index = arena.countOf index +
      if move = .work index then (arena.entries.gone (arena.apply move).entries).size else 0 := by
  cases move with
  | sweep visits => exact (arena.countOf_begin rfl index).trans (by simp)
  | read full => exact (arena.countOf_begin rfl index).trans (by simp)
  | write full entry => simp [apply, countOf]
  | erase full => simp [apply, countOf]
  | advance millis => simp [apply, countOf]
  | work at_ =>
      obtain ⟨none_, same⟩ | ⟨reclaimer, there, stepped⟩ := arena.apply_work at_
      · rw [same, Table.size_gone_self, ite_self, Nat.add_zero]
      · rw [stepped]
        unfold countOf
        by_cases own : at_ = index
        · subst own
          have bound : at_ < arena.reclaimers.length := (List.getElem?_eq_some_iff.mp there).1
          rw [if_pos rfl, List.getElem?_set_self bound, there]
          show (reclaimer.step arena.now arena.entries).1.counted = reclaimer.counted + _
          obtain ⟨kept, counted⟩ | ⟨full, entry, found, -, erased, counted⟩ :=
            reclaimer.step_cases arena.now arena.entries
          · rw [kept, counted, Table.size_gone_self]
            rfl
          · have contained : arena.entries.contains full = true := by
              rw [Table.contains, found]
              rfl
            rw [erased, counted, Table.size_gone_erase, if_pos contained]
        · have other : Move.work at_ ≠ .work index := fun same => own (Move.work.inj same)
          rw [if_neg other, List.getElem?_set_ne own, Nat.add_zero]

/-- **Each reclaimer counts** what its own steps take away. -/
theorem countOf_reach (arena : Arena) (moves : List Move) (index : Nat) :
    (arena.reach moves).countOf index = arena.countOf index + arena.takenBy index moves := by
  induction moves generalizing arena with
  | nil => rfl
  | cons move moves ih =>
      rw [reach, ih, countOf_apply, takenBy, Nat.add_assoc]

/-! ### Sweeps return -/

/-- Every move leaves a reclaimer no more to do, and its own steps leave it less. -/
theorem left_apply {index : Nat} {reclaimer : Reclaimer}
    (there : arena.reclaimers[index]? = some reclaimer) (move : Move) :
    ∃ next, (arena.apply move).reclaimers[index]? = some next ∧ next.isSweep = reclaimer.isSweep ∧
      next.left ≤ reclaimer.left - if move = .work index then 1 else 0 := by
  have bound : index < arena.reclaimers.length := (List.getElem?_eq_some_iff.mp there).1
  have unmoved : reclaimer.left ≤ reclaimer.left - 0 := Nat.le_refl _
  cases move with
  | sweep visits => exact ⟨reclaimer, (List.getElem?_append_left bound).trans there, rfl, unmoved⟩
  | read full => exact ⟨reclaimer, (List.getElem?_append_left bound).trans there, rfl, unmoved⟩
  | write full entry => exact ⟨reclaimer, there, rfl, unmoved⟩
  | erase full => exact ⟨reclaimer, there, rfl, unmoved⟩
  | advance millis => exact ⟨reclaimer, there, rfl, unmoved⟩
  | work at_ =>
      obtain ⟨none_, same⟩ | ⟨other, there', stepped⟩ := arena.apply_work at_
      · have apart : Move.work at_ ≠ .work index := fun same => by
          rw [Move.work.inj same, there] at none_
          cases none_
        rw [same, if_neg apart]
        exact ⟨reclaimer, there, rfl, unmoved⟩
      · rw [stepped]
        by_cases own : at_ = index
        · subst own
          cases there.symm.trans there'
          obtain ⟨less, sweep⟩ := reclaimer.step_left arena.now arena.entries
          rw [if_pos rfl]
          exact ⟨_, List.getElem?_set_self bound, sweep, less⟩
        · have apart : Move.work at_ ≠ .work index := fun same => own (Move.work.inj same)
          rw [if_neg apart]
          exact ⟨reclaimer, (List.getElem?_set_ne own).trans there, rfl, unmoved⟩

/-- **A sweep returns** when it has made its steps, whatever else happens in between. -/
theorem reach_swept {index : Nat} {reclaimer : Reclaimer} {moves : List Move}
    (there : arena.reclaimers[index]? = some reclaimer) (sweep : reclaimer.isSweep = true)
    (enough : reclaimer.left ≤ moves.count (.work index)) :
    ∃ removed, (arena.reach moves).reclaimers[index]? = some (.swept removed) := by
  induction moves generalizing arena reclaimer with
  | nil =>
      obtain ⟨removed, rfl⟩ := Reclaimer.eq_swept_of_left sweep (Nat.le_zero.mp enough)
      exact ⟨removed, there⟩
  | cons move moves ih =>
      obtain ⟨next, there', sweep', less⟩ := left_apply there move
      refine ih there' (sweep'.trans sweep) ?_
      rw [List.count_cons] at enough
      simp only [beq_iff_eq] at enough
      omega

end Arena

/-! ### Without interference -/

namespace Table

/-- Behind a conditional removal, what is found under the key is live. -/
theorem find?_removeIfExpired (entries : Table Entry) (now : Nat) (key full : Bytes) :
    (removeIfExpired entries now key).2.find? full =
      if full = key then entries.live? now full else entries.find? full := by
  unfold removeIfExpired live?
  cases found : entries.find? key with
  | none =>
      dsimp only
      split
      next same => rw [same, found]; rfl
      next => rfl
  | some entry =>
      dsimp only
      cases expired : entry.isExpired now with
      | false =>
          rw [if_neg Bool.false_ne_true]
          split
          next same => rw [same, found, Option.filter_some, expired]; rfl
          next => rfl
      | true =>
          rw [if_pos rfl, find?_erase]
          split
          next same => rw [same, found, Option.filter_some, expired]; rfl
          next => rfl

/-- Behind a removal of several keys, what is found under them is live. -/
theorem find?_reclaim (now : Nat) (keys : List Bytes) (entries : Table Entry) (full : Bytes) :
    (reclaim now keys entries).2.find? full =
      if full ∈ keys then entries.live? now full else entries.find? full := by
  induction keys generalizing entries with
  | nil => rfl
  | cons key keys ih =>
      rw [reclaim]
      refine (ih _).trans ?_
      rw [live?_removeIfExpired, find?_removeIfExpired]
      by_cases first : full = key <;> by_cases later : full ∈ keys <;> simp [first, later]

/-- The expired ones among keys that name all of a table, once removed, leave the live entries and
are all that is counted. -/
theorem reclaim_filter {entries : Table Entry} {now : Nat} {visits : List Bytes}
    (all : ∀ full ∈ entries.keys, full ∈ visits) :
    (reclaim now (visits.filter (entries.hasExpired now)) entries).1 =
        (entries.filter fun _ entry => entry.isExpired now).size ∧
      ∀ full, (reclaim now (visits.filter (entries.hasExpired now)) entries).2.find? full =
        entries.live? now full := by
  set listed := visits.filter (entries.hasExpired now) with filtered
  have remains : ∀ full, (reclaim now listed entries).2.find? full = entries.live? now full := by
    intro full
    rw [find?_reclaim]
    split
    next => rfl
    next unlisted =>
        rw [live?]
        cases found : entries.find? full with
        | none => rfl
        | some entry =>
            have visited : full ∈ visits := all full (mem_keys_iff.mpr (by rw [found]; rfl))
            have live : entry.isExpired now = false := by
              simpa [filtered, hasExpired, visited, found] using unlisted
            rw [Option.filter_some, live]
            rfl
  refine ⟨?_, remains⟩
  have kept : (reclaim now listed entries).2.size =
      (entries.filter fun _ entry => !entry.isExpired now).size := by
    refine size_eq_of_keys (f := id) (fun a b same => same) fun full => ?_
    rw [remains, live?]
    constructor
    · intro there
      exact ⟨full, rfl, by rw [find?_filter]; exact there⟩
    · rintro ⟨_, rfl, there⟩
      rw [find?_filter] at there
      exact there
  have parts := entries.size_eq_add fun _ entry => entry.isExpired now
  have counted := Store.reclaim_size now listed entries
  omega

/-- The keys that a sweep lists when it comes past each key of the table once. -/
theorem filter_keys_eq_expiredKeys (entries : Table Entry) (now : Nat) :
    entries.keys.filter (entries.hasExpired now) = expiredKeys entries now := by
  rw [expiredKeys, keys, keys, filter, List.filter_map]
  refine congrArg (List.map Prod.fst) (List.filter_congr fun pair mem => ?_)
  have found : entries.find? pair.1 = some pair.2 := find?_eq_some_iff.mpr mem
  simp [hasExpired, found]

end Table

namespace Arena

/-- The last reclaimer to begin makes a step. -/
theorem apply_work_last (now : Nat) (entries : Table Entry) (others : List Reclaimer)
    (reclaimer : Reclaimer) :
    (⟨now, entries, others ++ [reclaimer]⟩ : Arena).apply (.work others.length) =
      ⟨now, (reclaimer.step now entries).2, others ++ [(reclaimer.step now entries).1]⟩ := by
  simp only [apply, List.getElem?_concat_length, List.set_append_right _ _ (Nat.le_refl _),
    Nat.sub_self, List.set_cons_zero]

/-- The last reclaimer to begin makes steps while the others rest and the clock stands still. -/
def alone (now : Nat) (others : List Reclaimer) (steps : Nat) (state : Reclaimer × Table Entry) :
    Arena :=
  (⟨now, state.2, others ++ [state.1]⟩ : Arena).reach (List.replicate steps (.work others.length))

variable {now : Nat} {others : List Reclaimer}

theorem alone_succ (steps : Nat) (state : Reclaimer × Table Entry) :
    alone now others (steps + 1) state = alone now others steps (state.1.step now state.2) :=
  congrArg (reach · _) (apply_work_last now state.2 others state.1)

/-- The steps that list. -/
theorem alone_listing (entries : Table Entry) (ahead listed : List Bytes) (steps : Nat) :
    alone now others (ahead.length + 1 + steps) (.listing now ahead listed, entries) =
      alone now others steps
        (.removing (listed ++ ahead.filter (entries.hasExpired now)) 0, entries) := by
  induction ahead generalizing listed with
  | nil =>
      rw [List.length_nil, Nat.zero_add, Nat.add_comm, alone_succ, List.filter_nil,
        List.append_nil]
      rfl
  | cons full ahead ih =>
      rw [List.length_cons, Nat.add_right_comm, alone_succ]
      refine (ih _).trans ?_
      rw [List.filter_cons]
      split
      · rw [List.append_assoc, List.singleton_append]
      · rfl

/-- The steps that remove. -/
theorem alone_removing (entries : Table Entry) (ahead : List Bytes) (removed steps : Nat) :
    alone now others (ahead.length + 1 + steps) (.removing ahead removed, entries) =
      alone now others steps
        (.swept (removed + (reclaim now ahead entries).1), (reclaim now ahead entries).2) := by
  induction ahead generalizing removed entries with
  | nil =>
      rw [List.length_nil, Nat.zero_add, Nat.add_comm, alone_succ]
      rfl
  | cons full ahead ih =>
      rw [List.length_cons, Nat.add_right_comm, alone_succ]
      refine (ih _ _).trans ?_
      rw [Nat.add_assoc]
      rfl

/-- Who has returned stays so. -/
theorem alone_swept (entries : Table Entry) (removed steps : Nat) :
    alone now others steps (.swept removed, entries) = ⟨now, entries, others ++ [.swept removed]⟩ := by
  induction steps with
  | zero => rfl
  | succ steps ih => exact (alone_succ steps (.swept removed, entries)).trans ih

/-- **A sweep without interference** removes the expired ones of the keys that it visits. -/
theorem alone_sweeping (entries : Table Entry) (visits : List Bytes) :
    alone now others (2 * visits.length + 3) (.sweeping visits, entries) =
      ⟨now, (reclaim now (visits.filter (entries.hasExpired now)) entries).2, others ++
        [.swept (reclaim now (visits.filter (entries.hasExpired now)) entries).1]⟩ := by
  -- A sweep lists no more than it visits; the steps that are left over change nothing.
  have shorter : (visits.filter (entries.hasExpired now)).length ≤ visits.length :=
    List.length_filter_le _ _
  obtain ⟨spare, steps⟩ := Nat.exists_eq_add_of_le shorter
  have all : 2 * visits.length + 3 = (visits.length + 1 +
      ((visits.filter (entries.hasExpired now)).length + 1 + spare)) + 1 := by omega
  rw [all, alone_succ]
  refine (alone_listing entries visits [] _).trans ?_
  rw [List.nil_append, alone_removing, alone_swept, Nat.zero_add]

/-- **A read without interference** is a read of the store. -/
theorem alone_reading (store : Store) (full : Bytes) :
    ∃ removed, alone now others 2 (.reading full, store.entries) =
        ⟨now, (store.readLive now full).2.entries,
          others ++ [.answered (store.readLive now full).1 removed]⟩ ∧
      (store.readLive now full).2.ledger.expired = store.ledger.expired + removed := by
  rw [alone_succ, alone_succ]
  unfold Store.readLive
  cases found : store.entries.find? full with
  | none =>
      have first : Reclaimer.step now store.entries (.reading full) =
          (.answered none 0, store.entries) := by simp only [Reclaimer.step, found]
      rw [first]
      exact ⟨0, rfl, rfl⟩
  | some entry =>
      dsimp only
      cases expired : entry.isExpired now with
      | false =>
          have first : Reclaimer.step now store.entries (.reading full) =
              (.answered (some entry.value) 0, store.entries) := by
            simp only [Reclaimer.step, found, expired, Bool.false_eq_true, if_false]
          rw [first]
          exact ⟨0, rfl, rfl⟩
      | true =>
          have first : Reclaimer.step now store.entries (.reading full) =
              (.doubting full, store.entries) := by
            simp only [Reclaimer.step, found, expired, if_true]
          have removes : removeIfExpired store.entries now full =
              (true, store.entries.erase full) := by
            simp only [removeIfExpired, found, expired, if_true]
          rw [first]
          simp only [Reclaimer.step, removes, if_true]
          exact ⟨1, rfl, rfl⟩

/-! ### Whole runs -/

/-- What is safe about the moves that lead from one arena to another, and about what follows. -/
structure Orderly (start : Arena) (moves : List Move) (arena : Arena) : Prop where
  /-- A sweep or read takes away nothing but what is expired at that moment, and changes nothing
  else. -/
  removal : ∀ index, arena.entries.Reclaimed arena.now (arena.apply (.work index)).entries
  /-- An entry that no other client touches stays until it has expired. -/
  stays : ∀ full entry later, arena.entries.find? full = some entry →
    (∀ move ∈ later, move.touches full = false) → entry.isExpired (arena.reach later).now = false →
    (arena.reach later).entries.find? full = some entry
  /-- Between two removals of a key there was a write. -/
  once : ∀ full move between other, arena.Takes move full →
    ((arena.apply move).reach between).Takes other full → ∃ entry, .write full entry ∈ between
  /-- A sweep returns when it has made its steps. -/
  returns : ∀ index visits later, arena.reclaimers[index]? = some (.sweeping visits) →
    2 * visits.length + 3 ≤ later.count (.work index) →
    ∃ removed, (arena.reach later).reclaimers[index]? = some (.swept removed)
  /-- What a sweep returns is the number of entries that it took away. -/
  counts : ∀ index removed, arena.reclaimers[index]? = some (.swept removed) →
    removed = start.takenBy index moves
  /-- Without interference, a sweep that comes past all keys takes away the expired entries, and no
  others. -/
  uninterrupted : ∀ visits, (∀ full ∈ arena.entries.keys, full ∈ visits) →
    ∃ removed left, arena.reach (.sweep visits ::
          List.replicate (2 * visits.length + 3) (.work arena.reclaimers.length)) =
        ⟨arena.now, left, arena.reclaimers ++ [.swept removed]⟩ ∧
      removed = (arena.entries.filter fun _ entry => entry.isExpired arena.now).size ∧
      (∀ full, left.find? full = arena.entries.live? arena.now full) ∧
      (visits = arena.entries.keys → (removed, left) = sweepEntries arena.now arena.entries)
  /-- Without interference, a read does and answers what a store with these entries does. -/
  reads : ∀ (store : Store) full, store.entries = arena.entries →
    ∃ removed, arena.reach (.read full :: List.replicate 2 (.work arena.reclaimers.length)) =
        ⟨arena.now, (store.readLive arena.now full).2.entries,
          arena.reclaimers ++ [.answered (store.readLive arena.now full).1 removed]⟩ ∧
      (store.readLive arena.now full).2.ledger.expired = store.ledger.expired + removed

/-- **Reclaiming in two phases is safe.**  However any number of sweeps and reads are interleaved
with writes, deletions and the passing of time, nothing is reclaimed but expired entries, each of
them once, and each sweep counts its own. -/
theorem reach_orderly (now : Nat) (entries : Table Entry) (moves : List Move) :
    Orderly ⟨now, entries, []⟩ moves ((⟨now, entries, []⟩ : Arena).reach moves) where
  removal := fun index => apply_work_reclaimed _ index
  stays := fun full entry later found spared live => find?_reach found spared live
  once := fun full move between other first second => contains_reach first.2 second.1
  returns := fun index visits later there enough => reach_swept there rfl enough
  counts := fun index removed there => by
    have counted := countOf_reach ⟨now, entries, []⟩ moves index
    have none_ : countOf ⟨now, entries, []⟩ index = 0 := rfl
    rw [none_, Nat.zero_add, countOf, there] at counted
    exact counted
  uninterrupted := fun visits all => by
    obtain ⟨counted, remains⟩ := Table.reclaim_filter all
    refine ⟨_, _, alone_sweeping _ visits, counted, remains, fun same => ?_⟩
    rw [same, Table.filter_keys_eq_expiredKeys]
    rfl
  reads := fun store full same => by
    obtain ⟨removed, answered, counted⟩ := alone_reading store full
    rw [same] at answered
    exact ⟨removed, answered, counted⟩

/-- A key is written anew after two sweeps have listed it and a read has met it: what was written
lives on.  The expired entry of another key is taken away by the sweep that comes first. -/
example :
    let dead (n : Nat) : Entry := ⟨utf8 "old", 0, some n⟩
    let fresh : Entry := ⟨utf8 "new", 10, some 20⟩
    let start : Arena := ⟨10, (Table.empty.insert [1] (dead 5)).insert [2] (dead 10), []⟩
    let steps (index : Nat) : List Move := List.replicate 4 (.work index)
    let arena := start.reach (List.flatten [[.sweep [[1], [2]], .sweep [[2], [1]], .read [1]],
      steps 0, steps 1, [.work 2, .write [1] fresh, .work 2], steps 1, steps 0])
    arena.entries.pairs = [([1], fresh)] ∧
      arena.reclaimers = [.swept 0, .swept 1, .answered none 0] := by decide +kernel

end Arena

end TimedCache
