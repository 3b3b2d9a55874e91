import TimedCache.Bytes

/-!
# Tables

Finite maps from byte strings.  A table is a list of pairs with **distinct keys**; the condition
is part of the type, so every operation keeps it by construction.  The order of the pairs carries
no meaning: a table is read through `find?`.

## Main Definitions

* `Table` — a finite map
* `find?`, `insert`, `erase`, `filter` — lookup and update
* `find?_insert`, `find?_erase`, `find?_filter` — what each update does to every lookup
-/

namespace TimedCache

/-- A finite map from byte strings: pairs with distinct keys. -/
structure Table (α : Type) where
  pairs : List (Bytes × α)
  distinct : (pairs.map Prod.fst).Nodup

namespace Table

variable {α : Type}

/-- The table without pairs. -/
def empty : Table α := ⟨[], List.nodup_nil⟩

instance : Inhabited (Table α) := ⟨empty⟩

/-- The value stored under a key. -/
def find? (table : Table α) (key : Bytes) : Option α :=
  (table.pairs.find? fun pair => pair.1 = key).map Prod.snd

/-- Whether a key has a value. -/
def contains (table : Table α) (key : Bytes) : Bool :=
  (table.find? key).isSome

/-- The number of keys. -/
def size (table : Table α) : Nat :=
  table.pairs.length

/-- The keys, in no particular order. -/
def keys (table : Table α) : List Bytes :=
  table.pairs.map Prod.fst

/-- The pairs that satisfy a condition. -/
def filter (keep : Bytes → α → Bool) (table : Table α) : Table α where
  pairs := table.pairs.filter fun pair => keep pair.1 pair.2
  distinct := table.distinct.sublist (List.filter_sublist.map Prod.fst)

/-- The table without a key. -/
def erase (key : Bytes) (table : Table α) : Table α :=
  table.filter fun other _ => other ≠ key

/-- No pair of a table without a key carries that key. -/
theorem not_mem_keys_erase (key : Bytes) (table : Table α) :
    key ∉ (table.erase key).pairs.map Prod.fst := by
  simp [erase, filter]

/-- The table in which a key has a new value. -/
def insert (key : Bytes) (value : α) (table : Table α) : Table α where
  pairs := (key, value) :: (table.erase key).pairs
  distinct := List.nodup_cons.mpr ⟨not_mem_keys_erase key table, (table.erase key).distinct⟩

/-- The table of a list of pairs, in which the last pair of each key counts. -/
def ofList (pairs : List (Bytes × α)) : Table α :=
  pairs.foldl (fun table pair => table.insert pair.1 pair.2) empty

/-! ### Lookups -/

@[simp] theorem find?_empty (key : Bytes) : (empty : Table α).find? key = none := rfl

/-- A pair is in the table exactly if its key is found with its value. -/
theorem find?_eq_some_iff {table : Table α} {key : Bytes} {value : α} :
    table.find? key = some value ↔ (key, value) ∈ table.pairs := by
  obtain ⟨pairs, distinct⟩ := table
  simp only [find?]
  induction pairs with
  | nil => simp
  | cons pair pairs ih =>
    obtain ⟨k, v⟩ := pair
    simp only [List.map_cons, List.nodup_cons] at distinct
    by_cases h : k = key
    · subst h
      have fresh : (k, value) ∉ pairs := fun mem =>
        distinct.1 (List.mem_map.mpr ⟨(k, value), mem, rfl⟩)
      simp [fresh, eq_comm]
    · have h' : key ≠ k := fun e => h e.symm
      simp [h, h', ih distinct.2]

/-- Filtering keeps exactly the values that satisfy the condition under their key. -/
theorem find?_filter (keep : Bytes → α → Bool) (table : Table α) (key : Bytes) :
    (table.filter keep).find? key = (table.find? key).filter (keep key) := by
  cases found : (table.filter keep).find? key with
  | some value =>
    obtain ⟨mem, kept⟩ := List.mem_filter.mp (find?_eq_some_iff.mp found)
    rw [find?_eq_some_iff.mpr mem, Option.filter_some, if_pos kept]
  | none =>
    cases here : table.find? key with
    | none => rfl
    | some value =>
      by_cases kept : keep key value = true
      · have mem : (key, value) ∈ (table.filter keep).pairs :=
          List.mem_filter.mpr ⟨find?_eq_some_iff.mp here, kept⟩
        rw [find?_eq_some_iff.mpr mem] at found
        cases found
      · rw [Option.filter_some, if_neg kept]

/-- Erasing a key forgets its value and no other. -/
theorem find?_erase (key other : Bytes) (table : Table α) :
    (table.erase key).find? other = if other = key then none else table.find? other := by
  rw [erase, find?_filter]
  by_cases h : other = key
  · cases table.find? other <;> simp [h]
  · cases table.find? other <;> simp [h]

/-- Inserting under a key changes the value of that key and no other. -/
theorem find?_insert (key other : Bytes) (value : α) (table : Table α) :
    (table.insert key value).find? other = if other = key then some value else table.find? other := by
  by_cases h : other = key
  · subst h
    simp [insert, find?]
  · have h' : key ≠ other := fun e => h e.symm
    have step : (table.insert key value).find? other = (table.erase key).find? other := by
      simp [insert, find?, h']
    rw [step, find?_erase, if_neg h, if_neg h]

end Table

end TimedCache
