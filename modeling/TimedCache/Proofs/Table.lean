import Mathlib.Data.List.Perm.Basic
import Mathlib.Data.List.Nodup
import TimedCache.Table

/-!
# Counting the keys of tables

The order of the pairs of a table carries no meaning, and neither does the table itself beyond its
lookups.  So tables are counted **through their keys**: two tables whose keys correspond one to one
have the same size (`size_eq_of_keys`), and a filter splits a table into two parts whose sizes add
up (`size_filter_add`).  The pairs under one key are such a part, and there is at most one of them
(`size_filter_key`).

**Filters** may be joined (`filter_filter`), and only what they say of the pairs counts (`filter_congr`).

**Updates.**  An insertion makes a table larger by one exactly if the key is new (`size_insert`), an
erasure makes it smaller by one exactly if the key was there (`size_erase_add`), and whatever only
takes keys away makes it smaller by the keys that are gone (`size_eq_add_gone`).
-/

namespace TimedCache.Table

variable {α β : Type}

/-- The keys of a table are those that have a value. -/
theorem mem_keys_iff {table : Table α} {key : Bytes} :
    key ∈ table.keys ↔ (table.find? key).isSome = true := by
  rw [keys, List.mem_map, Option.isSome_iff_exists]
  constructor
  · rintro ⟨⟨k, value⟩, mem, rfl⟩
    exact ⟨value, find?_eq_some_iff.mpr mem⟩
  · rintro ⟨value, found⟩
    exact ⟨(key, value), find?_eq_some_iff.mp found, rfl⟩

theorem length_keys (table : Table α) : table.keys.length = table.size :=
  List.length_map _

/-- Tables whose keys correspond one to one have the same size. -/
theorem size_eq_of_keys {table : Table α} {other : Table β} {f : Bytes → Bytes}
    (inj : Function.Injective f)
    (same : ∀ full, (table.find? full).isSome = true ↔
      ∃ key, f key = full ∧ (other.find? key).isSome = true) :
    table.size = other.size := by
  have distinct : table.keys.Nodup := table.distinct
  have distinct' : (other.keys.map f).Nodup := other.distinct.map inj
  have perm : table.keys.Perm (other.keys.map f) := by
    refine (List.perm_ext_iff_of_nodup distinct distinct').mpr fun full => ?_
    rw [List.mem_map, mem_keys_iff, same]
    constructor
    · rintro ⟨key, rfl, there⟩
      exact ⟨key, mem_keys_iff.mpr there, rfl⟩
    · rintro ⟨key, there, rfl⟩
      exact ⟨key, rfl, mem_keys_iff.mp there⟩
  rw [← length_keys, perm.length_eq, List.length_map, length_keys]

/-- The pairs that satisfy a condition, and those among them that satisfy another one or not. -/
theorem size_filter_add (table : Table α) (keep other : Bytes → α → Bool) :
    (table.filter keep).size =
      (table.filter fun key value => other key value && keep key value).size +
        (table.filter fun key value => !other key value && keep key value).size := by
  simp only [size, filter]
  induction table.pairs with
  | nil => rfl
  | cons pair pairs ih =>
      simp only [List.filter_cons]
      cases keep pair.1 pair.2 with
      | false => simpa using ih
      | true =>
          cases other pair.1 pair.2 with
          | false => simpa [← Nat.add_assoc] using ih
          | true => simpa [Nat.add_right_comm _ 1] using ih

/-- Under one key there is at most one pair. -/
theorem size_filter_key (table : Table α) (key : Bytes) (keep : Bytes → α → Bool) :
    (table.filter fun other value => decide (other = key) && keep other value).size =
      if ((table.find? key).filter (keep key)).isSome then 1 else 0 := by
  -- The table that has a pair under the key, or none.
  let single : Table Unit :=
    if ((table.find? key).filter (keep key)).isSome then empty.insert key () else empty
  have size : single.size = if ((table.find? key).filter (keep key)).isSome then 1 else 0 := by
    dsimp only [single]
    split <;> rfl
  rw [← size]
  refine size_eq_of_keys (f := id) (fun a b same => same) fun full => ?_
  rw [find?_filter]
  constructor
  · intro there
    obtain ⟨value, filtered⟩ := Option.isSome_iff_exists.mp there
    obtain ⟨stored, chosen⟩ := Option.filter_eq_some_iff.mp filtered
    rw [Bool.and_eq_true, decide_eq_true_eq] at chosen
    obtain ⟨rfl, chosen⟩ := chosen
    refine ⟨full, rfl, ?_⟩
    have kept : ((table.find? full).filter (keep full)).isSome = true := by
      rw [stored, Option.filter_some, if_pos chosen]
      rfl
    dsimp only [single]
    rw [if_pos kept, find?_insert, if_pos rfl]
    rfl
  · rintro ⟨_, rfl, there⟩
    dsimp only [single] at there
    split at there
    next kept =>
      rw [find?_insert] at there
      split at there
      next same =>
        subst same
        simpa using kept
      next => cases there
    next => cases there

/-- What a condition selects after a key was erased is what it selects under the other keys. -/
theorem size_filter_erase (table : Table α) (key : Bytes) (keep : Bytes → α → Bool) :
    ((table.erase key).filter keep).size =
      (table.filter fun other value => !decide (other = key) && keep other value).size := by
  show ((table.pairs.filter fun pair => decide (pair.1 ≠ key)).filter fun pair =>
    keep pair.1 pair.2).length = (table.pairs.filter fun pair =>
      !decide (pair.1 = key) && keep pair.1 pair.2).length
  rw [List.filter_filter]
  refine congrArg (fun select => (table.pairs.filter select).length) (funext fun pair => ?_)
  rw [decide_not, Bool.and_comm]

/-! ### Filters -/

theorem filter_true (table : Table α) : (table.filter fun _ _ => true) = table := by
  obtain ⟨pairs, distinct⟩ := table
  simp [filter]

/-- What is kept under two conditions is kept under both at once. -/
theorem filter_filter (table : Table α) (keep other : Bytes → α → Bool) :
    (table.filter keep).filter other =
      table.filter fun key value => keep key value && other key value := by
  simp [filter, List.filter_filter, Bool.and_comm]

/-- Conditions that say the same of every pair keep the same. -/
theorem filter_congr {table : Table α} {keep other : Bytes → α → Bool}
    (same : ∀ pair ∈ table.pairs, keep pair.1 pair.2 = other pair.1 pair.2) :
    table.filter keep = table.filter other := by
  simp only [filter, mk.injEq]
  exact List.filter_congr same

/-- What no pair satisfies leaves nothing. -/
theorem filter_eq_empty {table : Table α} {keep : Bytes → α → Bool}
    (none : ∀ pair ∈ table.pairs, keep pair.1 pair.2 = false) : table.filter keep = .empty := by
  simp only [filter, empty, mk.injEq]
  exact List.filter_eq_nil_iff.mpr fun pair mem => Bool.eq_false_iff.mp (none pair mem)

/-- A condition splits a table into two parts. -/
theorem size_eq_add (table : Table α) (part : Bytes → α → Bool) :
    table.size = (table.filter part).size + (table.filter fun key value => !part key value).size := by
  have split := table.size_filter_add (fun _ _ => true) part
  simpa only [Bool.and_true, filter_true] using split

/-! ### Updates -/

/-- Of two insertions under one key the second counts. -/
theorem insert_insert (table : Table α) (key : Bytes) (first second : α) :
    (table.insert key first).insert key second = table.insert key second := by
  simp [insert, erase, filter, List.filter_filter]

/-- The pairs of a table whose keys are not in another one. -/
def gone (before after : Table α) : Table α :=
  before.filter fun key _ => !after.contains key

/-- What only takes keys away makes a table smaller by the keys that are gone. -/
theorem size_eq_add_gone {before after : Table α}
    (sub : ∀ key, after.contains key = true → before.contains key = true) :
    before.size = after.size + (before.gone after).size := by
  have kept : (before.filter fun key _ => after.contains key).size = after.size := by
    refine size_eq_of_keys (f := id) (fun a b same => same) fun key => ?_
    have there := sub key
    unfold contains at there
    rw [find?_filter, contains]
    constructor
    · intro both
      obtain ⟨value, found⟩ := Option.isSome_iff_exists.mp both
      exact ⟨key, rfl, (Option.filter_eq_some_iff.mp found).2⟩
    · rintro ⟨other, same, here⟩
      obtain rfl : other = key := same
      obtain ⟨value, found⟩ := Option.isSome_iff_exists.mp (there here)
      rw [found, Option.filter_some, if_pos here]
      rfl
  rw [gone, ← kept]
  exact before.size_eq_add fun key _ => after.contains key

/-- Nothing is gone from a table that stays as it is. -/
theorem size_gone_self (table : Table α) : (table.gone table).size = 0 := by
  have same := @size_eq_add_gone _ table table fun _ there => there
  omega

theorem contains_of_contains_filter {keep : Bytes → α → Bool} {table : Table α} {key : Bytes}
    (there : (table.filter keep).contains key = true) : table.contains key = true := by
  unfold contains at *
  rw [find?_filter] at there
  obtain ⟨value, found⟩ := Option.isSome_iff_exists.mp there
  rw [(Option.filter_eq_some_iff.mp found).1]
  rfl

/-- An erasure takes away one pair if the key was there. -/
theorem size_erase_add (table : Table α) (key : Bytes) :
    (table.erase key).size + (if table.contains key then 1 else 0) = table.size := by
  have split := table.size_eq_add fun other _ => decide (other ≠ key)
  have single := table.size_filter_key key fun _ _ => true
  have there : ((table.find? key).filter fun _ => true) = table.find? key := by
    cases table.find? key <;> rfl
  simp only [Bool.and_true, there] at single
  simp only [ne_eq, decide_not, Bool.not_not, single] at split
  rw [split, contains, erase]
  simp only [ne_eq, decide_not]

/-- What an erasure takes away is the pair of the key. -/
theorem size_gone_erase (table : Table α) (key : Bytes) :
    (table.gone (table.erase key)).size = if table.contains key then 1 else 0 := by
  have erased := table.size_erase_add key
  have gone := @size_eq_add_gone _ table (table.erase key) fun _ => contains_of_contains_filter
  omega

/-- An insertion adds one pair if the key is new. -/
theorem size_insert (table : Table α) (key : Bytes) (value : α) :
    (table.insert key value).size = table.size + (if table.contains key then 0 else 1) := by
  have erased := table.size_erase_add key
  have inserted : (table.insert key value).size = (table.erase key).size + 1 := rfl
  rw [inserted, ← erased]
  cases table.contains key <;> simp

theorem contains_insert (key other : Bytes) (value : α) (table : Table α) :
    (table.insert key value).contains other = (decide (other = key) || table.contains other) := by
  rw [contains, find?_insert, contains]
  by_cases same : other = key <;> simp [same]

end TimedCache.Table
