import TimedCache.Proofs.Json.Values
import TimedCache.Proofs.Lifetime
import TimedCache.Proofs.ManagementApi.Acceptance
import TimedCache.Proofs.Store.Live

/-!
# Histories of changes

A history lists the accepted changes with the times at which they were made.  **What holds** under a
key (`Holds`) is the document that was put there last, if nothing has touched the key since and its
lifetime has not elapsed.

A store **mirrors** a history (`Mirrors`) if the live entry of each key is the one that the last put has
made, as long as it has not expired.  An accepted change does the same to both, and neither reads nor
sweeps nor the passing of time do anything to either.

**Short lifetimes.**  An entry expires when its lifetime has elapsed (`isExpired_putEntry_iff`), as long as
lifetimes are below `2 ^ 50` seconds and the clock has not reached the last representable time.  Expiries
stop there, and entries would be gone too early.

## Main Definitions

* `Record`, `Holds` — a change with its time, and what holds according to a history
* `Mirrors` — a store and a history that agree
* `seen?` — the put that a read sees
-/

namespace TimedCache

open Json

/-! ### Histories -/

/-- A change and the wall clock at which it was made. -/
structure Record where
  wall : Nat
  change : Change

/-- What was put under some key: when, the document, and its lifetime in seconds. -/
def Record.put? : Record → Option (Nat × Json × Nat)
  | ⟨wall, .put _ value seconds⟩ => some (wall, value, seconds)
  | _ => none

/-- What was put under a key by the last change that has touched the key. -/
def lastPut? (key : Bytes) (history : List Record) : Option (Nat × Json × Nat) :=
  history.foldl (fun found record => if record.change.touches key then record.put? else found) none

/-- A lifetime in seconds has not elapsed, where zero stands for the default.  If that is empty as
well, it never elapses. -/
def Lasts (default : Duration) (wall seconds now : Nat) : Prop :=
  let lifetime := (Duration.ofSecs seconds).orDefault default
  lifetime.isZero = true ∨ now < wall + lifetime.wholeMillis

/-- **What holds under a key**: it was put there, nothing has touched the key since, and its lifetime
has not elapsed. -/
def Holds (default : Duration) (history : List Record) (key : Bytes) (value : Json) (now : Nat) :
    Prop :=
  ∃ older newer wall seconds,
    history = older ++ (⟨wall, .put key value seconds⟩ :: newer : List Record) ∧
      (∀ later ∈ newer, later.change.touches key = false) ∧ Lasts default wall seconds now

section Histories

variable {key : Bytes} {history : List Record}

theorem lastPut?_concat (key : Bytes) (history : List Record) (record : Record) :
    lastPut? key (history ++ [record]) =
      if record.change.touches key then record.put? else lastPut? key history := by
  rw [lastPut?, List.foldl_append]
  rfl

theorem lastPut?_append_of_untouched {newer : List Record}
    (untouched : ∀ later ∈ newer, later.change.touches key = false) :
    lastPut? key (history ++ newer) = lastPut? key history := by
  induction newer using List.reverseRecOn with
  | nil => rw [List.append_nil]
  | append_singleton newer last ih =>
      obtain ⟨before, own⟩ := List.forall_mem_append.mp untouched
      rw [← List.append_assoc, lastPut?_concat, own last List.mem_cons_self, ih before]
      rfl

/-- The last put, where it stands in the history. -/
theorem lastPut?_eq_some_iff {wall seconds : Nat} {value : Json} :
    lastPut? key history = some (wall, value, seconds) ↔
      ∃ older newer, history = older ++ (⟨wall, .put key value seconds⟩ :: newer : List Record) ∧
        ∀ later ∈ newer, later.change.touches key = false := by
  constructor
  · intro last
    induction history using List.reverseRecOn with
    | nil => cases last
    | append_singleton history record ih =>
        rw [lastPut?_concat] at last
        split at last
        next touches =>
          obtain ⟨wall', change⟩ := record
          cases change with
          | put other value' seconds' =>
              cases last
              obtain rfl : other = key := of_decide_eq_true touches
              exact ⟨history, [], rfl, List.forall_mem_nil _⟩
          | delete other => cases last
          | flush => cases last
          | invalidate pattern => cases last
        next untouched =>
          obtain ⟨older, newer, rfl, quiet⟩ := ih last
          refine ⟨older, newer ++ [record], ?_, ?_⟩
          · rw [List.append_assoc]
            rfl
          · exact List.forall_mem_append.mpr
              ⟨quiet, List.forall_mem_singleton.mpr (Bool.eq_false_iff.mpr untouched)⟩
  · rintro ⟨older, newer, rfl, untouched⟩
    rw [List.append_cons, lastPut?_append_of_untouched untouched, lastPut?_concat]
    exact if_pos (decide_eq_true rfl)

theorem holds_iff {default : Duration} {value : Json} {now : Nat} :
    Holds default history key value now ↔ ∃ wall seconds,
      lastPut? key history = some (wall, value, seconds) ∧ Lasts default wall seconds now := by
  constructor
  · rintro ⟨older, newer, wall, seconds, split, untouched, lasts⟩
    exact ⟨wall, seconds, lastPut?_eq_some_iff.mpr ⟨older, newer, split, untouched⟩, lasts⟩
  · rintro ⟨wall, seconds, last, lasts⟩
    obtain ⟨older, newer, split, untouched⟩ := lastPut?_eq_some_iff.mp last
    exact ⟨older, newer, wall, seconds, split, untouched, lasts⟩

end Histories

/-! ### Histories and stores -/

/-- The entry that a put makes. -/
def putEntry (options : Options) (put : Nat × Json × Nat) : Entry :=
  .write put.1 put.2.1.text (options.lifetime (.ofSecs put.2.2))

/-- A put that the interface may accept: the document is regular and holds no floating-point numbers,
and the lifetime is shorter than 2^50 seconds. -/
structure Plain (value : Json) (seconds : Nat) : Prop where
  regular : Regular 126 value
  floatFree : FloatFree value
  short : seconds < 2 ^ 50

/-- The live entries of a store are those that the last puts have made. -/
structure Mirrors (options : Options) (history : List Record) (now : Nat) (store : Store) :
    Prop where
  live : ∀ key, store.live? now key =
    ((lastPut? key history).map (putEntry options)).filter fun entry => !entry.isExpired now
  plain : ∀ record ∈ history, ∀ key value seconds,
    record.change = .put key value seconds → Plain value seconds
  isOpen : store.isOpen = true
  options : store.options = options

section Mirrors

variable {options : Options} {history : List Record} {now : Nat} {store other : Store}

theorem mirrors_fresh (options : Options) (now : Nat) :
    Mirrors options [] now (.fresh options) :=
  ⟨fun _ => rfl, List.forall_mem_nil _, rfl, rfl⟩

theorem Mirrors.alike (mirrors : Mirrors options history now store)
    (alike : Store.Alike now store other) : Mirrors options history now other where
  live := fun key => (alike.live? key).trans (mirrors.live key)
  plain := mirrors.plain
  isOpen := alike.isOpen.trans mirrors.isOpen
  options := alike.options.trans mirrors.options

theorem Mirrors.later (mirrors : Mirrors options history now store) {later : Nat}
    (le : now ≤ later) : Mirrors options history later store where
  live := fun key => by rw [Store.live?_later le, mirrors.live, Entry.filter_later le]
  plain := mirrors.plain
  isOpen := mirrors.isOpen
  options := mirrors.options

theorem Mirrors.plain_of_lastPut (mirrors : Mirrors options history now store) {key : Bytes}
    {put : Nat × Json × Nat} (last : lastPut? key history = some put) :
    Plain put.2.1 put.2.2 := by
  obtain ⟨older, newer, rfl, -⟩ := lastPut?_eq_some_iff.mp last
  exact mirrors.plain _ (List.mem_append_right older List.mem_cons_self) key _ _ rfl

/-- An accepted put does the same to the store and to the history. -/
theorem Mirrors.put (mirrors : Mirrors options history now store) {key : Bytes} {value : Json}
    {seconds : Nat} (plain : Plain value seconds) {ttl : Duration}
    (same : options.lifetime ttl = options.lifetime (.ofSecs seconds)) :
    Mirrors options (history ++ [⟨now, .put key value seconds⟩]) now
      (store.write now key value.text ttl) where
  live := fun other => by
    rw [Store.write, Store.live?_insert, lastPut?_concat, mirrors.live]
    by_cases own : other = key
    · have touches : (Change.put key value seconds).touches other = true :=
        decide_eq_true own.symm
      rw [if_pos own, touches, Store.newEntry, mirrors.options, same]
      rfl
    · have untouched : (Change.put key value seconds).touches other = false :=
        decide_eq_false fun eq => own eq.symm
      rw [if_neg own, untouched]
      rfl
  plain := by
    refine List.forall_mem_append.mpr ⟨mirrors.plain, List.forall_mem_singleton.mpr ?_⟩
    rintro _ _ _ ⟨⟩
    exact plain
  isOpen := mirrors.isOpen
  options := mirrors.options

/-- An accepted removal does the same to the store and to the history. -/
theorem Mirrors.remove (mirrors : Mirrors options history now store) (change : Change)
    (after : Store) (options' : after.options = store.options) (isOpen : after.isOpen = store.isOpen)
    (removes : Record.put? ⟨now, change⟩ = none)
    (live : ∀ key, after.live? now key =
      if change.touches key then none else store.live? now key) :
    Mirrors options (history ++ [⟨now, change⟩]) now after where
  live := fun key => by
    rw [live, lastPut?_concat, mirrors.live, removes]
    split <;> rfl
  plain := by
    refine List.forall_mem_append.mpr ⟨mirrors.plain, List.forall_mem_singleton.mpr ?_⟩
    rintro key value seconds rfl
    cases removes
  isOpen := isOpen.trans mirrors.isOpen
  options := options'.trans mirrors.options

end Mirrors

/-! ### What is seen -/

/-- The put that a read of a key sees. -/
def seen? (options : Options) (history : List Record) (now : Nat) (key : Bytes) :
    Option (Nat × Json × Nat) :=
  (lastPut? key history).filter fun put => !(putEntry options put).isExpired now

/-- An entry is there as long as its lifetime has not elapsed, if nothing is cut off its lifetime and the
clock is still before the last time. -/
theorem isExpired_putEntry_iff_of_fits {options : Options} {wall seconds now : Nat} {value : Json}
    (fits : ((Duration.ofSecs seconds).orDefault options.defaultLifetime).wholeMillis < word64)
    (early : now < word64 - 1) :
    (putEntry options (wall, value, seconds)).isExpired now = false ↔
      Lasts options.defaultLifetime wall seconds now := by
  unfold Lasts putEntry Options.lifetime
  dsimp only
  generalize (Duration.ofSecs seconds).orDefault options.defaultLifetime = lifetime at fits
  cases empty : lifetime.isZero with
  | true => simp
  | false =>
      have eq := Duration.expiry_eq_min wall lifetime
      rw [Nat.mod_eq_of_lt fits] at eq
      simp only [Bool.false_eq_true, if_false, false_or]
      rw [Duration.isExpired_write_iff, eq]
      omega

/-- Lifetimes of less than `2 ^ 50` seconds are not cut. -/
theorem isExpired_putEntry_iff {options : Options} {wall seconds now : Nat} {value : Json}
    (moderate : options.defaultLifetime.nanos < (Duration.ofSecs (2 ^ 50)).nanos)
    (short : seconds < 2 ^ 50) (early : now < word64 - 1) :
    (putEntry options (wall, value, seconds)).isExpired now = false ↔
      Lasts options.defaultLifetime wall seconds now := by
  have below : ((Duration.ofSecs seconds).orDefault options.defaultLifetime).nanos <
      (Duration.ofSecs (2 ^ 50)).nanos := by
    unfold Duration.orDefault
    split
    · exact moderate
    · exact Nat.mul_lt_mul_of_pos_right short (by decide)
  refine isExpired_putEntry_iff_of_fits (Nat.div_lt_of_lt_mul (Nat.lt_trans below ?_)) early
  decide

/-- **What is seen is what holds.** -/
theorem exists_seen_iff_holds {options : Options} {history : List Record} {now : Nat} {store : Store}
    (mirrors : Mirrors options history now store)
    (moderate : options.defaultLifetime.nanos < (Duration.ofSecs (2 ^ 50)).nanos)
    (early : now < word64 - 1) {key : Bytes} {value : Json} :
    (∃ wall seconds, seen? options history now key = some (wall, value, seconds)) ↔
      Holds options.defaultLifetime history key value now := by
  rw [holds_iff]
  refine exists_congr fun wall => exists_congr fun seconds => ?_
  rw [seen?, Option.filter_eq_some_iff]
  refine and_congr_right fun last => ?_
  rw [Bool.not_eq_true', isExpired_putEntry_iff moderate (mirrors.plain_of_lastPut last).short early]

end TimedCache
