import TimedCache.Proofs.BulkWork
import TimedCache.Proofs.DomainKey
import TimedCache.Proofs.Documents
import TimedCache.Proofs.Store.Invalidation

/-!
# Forgetting is exact

To forget a user or a product is to delete keys and to invalidate a pattern.  On an open store in the
process this **succeeds and takes away just what it should** (`EntityCache.forgets_exactly`): the keys of
the entity itself, and whatever begins like a list that it may be part of.  Ids may be any text, since they
only occur in keys, never in patterns.

**All that was forgotten is loaded again.**  When the entity, or any page of a list, is read right
afterwards, it is looked up in vain; it is loaded once, and what was loaded is stored and read back
(`EntityCache.LoadsOnce`).

## Main Definitions

* `EntityCache.Forgets` — keys are forgotten, and no others
* `EntityCache.LoadsOnce` — a reading that loads
-/

namespace TimedCache

/-- The notes of a program that runs to its end in a deployment. -/
abbrev Deployment.notes {β : Type} (deployment : Deployment) (program : Program β) : List Note :=
  program.notes 0 Deployment.wall Deployment.answer deployment

/-- Whether an item has a backend clear a key. -/
def Item.Clears (key : Bytes) : Item → Prop
  | ask _ _ op => op.clears key = true
  | hopeless _ => False

namespace EntityCache

variable {cache : EntityCache} {deployment : Deployment} {store : Store} {context : Context}

/-! ### Taking away -/

/-- What was run has succeeded, and certain keys were forgotten, and no others. -/
structure Forgets (cache : EntityCache) (gone : Bytes → Prop) (before : Store)
    (run : Except CacheError Unit × Deployment) : Prop where
  succeeds : run.1 = .ok ()
  exactly : ∃ after, run.2.Serves cache.backend after ∧ before.LosesExactly gone after

/-- While an attempt to forget is under way, the context may still go on, and the keys that the items so far
clear are gone. -/
structure Forgetting (cache : EntityCache) (context : Context) (before : Store) (attempted : List Item)
    (deployment : Deployment) : Prop where
  live : deployment.standing context = .live
  exactly : ∃ after, deployment.Serves cache.backend after ∧
    before.LosesExactly (fun key => ∃ item ∈ attempted, item.Clears key) after

/-- One more item. -/
theorem Forgetting.step {before : Store} {attempted : List Item}
    (forgetting : cache.Forgetting context before attempted deployment) {op : Operation}
    (removal : op.isRemoval = true) :
    let item := Item.ask cache.backend.id context op
    (deployment.run item.program).1 = .ok () ∧
      cache.Forgetting context before (attempted ++ [item]) (deployment.run item.program).2 := by
  intro item
  obtain ⟨store, serves, lost⟩ := forgetting.exactly
  obtain ⟨answer, there, -⟩ := Deployment.store?_perform serves.here context op
  obtain ⟨⟨value, done⟩, loses⟩ := store.carryOut_removal deployment.wall removal
  rw [forgetting.live, Store.perform_of_open serves.isOpen] at answer there
  have result : (deployment.run item.program).1 = .ok () := by
    show (deployment.perform cache.backend.id context op).1.map (fun _ => ()) = _
    rw [answer, done]
    rfl
  have same : (deployment.run item.program).2 = (deployment.perform cache.backend.id context op).2 :=
    rfl
  refine ⟨result, ?_, _, ⟨there, loses.isOpen.trans serves.isOpen,
    loses.options.trans serves.options⟩, (lost.trans loses).congr fun key => ?_⟩
  · rw [same, Deployment.standing_perform]
    exact forgetting.live
  · simp only [List.mem_append, List.mem_singleton, or_and_right, exists_or, exists_eq_left]
    rfl

theorem isRemoval_of_forgetItems {keys patterns : List Bytes} {item : Item}
    (mem : item ∈ cache.forgetItems context keys patterns) :
    ∃ op, item = .ask cache.backend.id context op ∧ op.isRemoval = true := by
  obtain deleted | invalidated := List.mem_append.mp mem
  · obtain ⟨key, -, rfl⟩ := List.mem_map.mp deleted
    exact ⟨_, rfl, rfl⟩
  · obtain ⟨pattern, -, rfl⟩ := List.mem_map.mp invalidated
    exact ⟨_, rfl, rfl⟩

theorem clears_forgetItems_iff {keys patterns : List Bytes} {key : Bytes} :
    (∃ item ∈ cache.forgetItems context keys patterns, item.Clears key) ↔
      key ∈ keys ∨ ∃ pattern ∈ patterns, Glob.accepts pattern key = true := by
  constructor
  · rintro ⟨item, mem, clears⟩
    obtain deleted | invalidated := List.mem_append.mp mem
    · obtain ⟨other, listed, rfl⟩ := List.mem_map.mp deleted
      obtain rfl : other = key := of_decide_eq_true clears
      exact .inl listed
    · obtain ⟨pattern, listed, rfl⟩ := List.mem_map.mp invalidated
      exact .inr ⟨pattern, listed, clears⟩
  · rintro (mem | ⟨pattern, mem, accepts⟩)
    · exact ⟨_, List.mem_append_left _ (List.mem_map_of_mem mem), decide_eq_true rfl⟩
    · exact ⟨_, List.mem_append_right _ (List.mem_map_of_mem mem), accepts⟩

/-- **Keys and patterns are forgotten** on an open store in the process, and nothing else is. -/
theorem forgets_forgetAll (serves : deployment.Serves cache.backend store)
    (live : deployment.standing context = .live) (keys patterns : List Bytes) :
    cache.Forgets (fun key => key ∈ keys ∨ ∃ pattern ∈ patterns, Glob.accepts pattern key = true)
      store (deployment.run (cache.forgetAll context keys patterns)) := by
  -- The items go one by one, and what is gone so far is the invariant.
  have start : cache.Forgetting context store [] deployment :=
    ⟨live, store, serves, (Store.LosesExactly.refl store).congr fun key => by simp⟩
  rw [cache.forgetAll_eq]
  obtain ⟨succeeds, forgotten⟩ := Program.run_attemptAll
    (fun mem forgetting => by
      obtain ⟨op, rfl, removal⟩ := isRemoval_of_forgetItems mem
      exact forgetting.step removal) start
  obtain ⟨after, serves', loses⟩ := forgotten.exactly
  exact ⟨succeeds, after, serves', loses.congr fun key => clears_forgetItems_iff⟩

/-! ### Loading again -/

variable {α : Type}

/-- **What a reading that loads gives, and its notes**: the entity is looked up in vain, then it is loaded.
What was loaded is stored, and what is given is read back from the document that was stored. -/
inductive Loading (cache : EntityCache) (codec : Codec α) (context : Context) (key : DomainKey)
    (load : Compute α) (deployment : Deployment) : Except CacheError α → List Note → Prop
  /-- The failure to load is the failure of the reading. -/
  | failed {failure : CacheError} {reason : Bytes}
      (loads : ((deployment.perform cache.backend.id context (.get key.text)).2.run load).1 =
        .error reason) :
      Loading cache codec context key load deployment (.error (.computeFailed reason))
        (⟨0, deployment.wall, .perform cache.backend.id context (.get key.text), .error failure⟩ ::
          (deployment.perform cache.backend.id context (.get key.text)).2.notes load)
  /-- However the store ends, the value is returned, as far as it can be read back. -/
  | loaded {failure : CacheError} {value : α} {wall : Nat} {ttl : Duration}
      {stored : Except CacheError Unit}
      (loads : ((deployment.perform cache.backend.id context (.get key.text)).2.run load).1 =
        .ok value) :
      Loading cache codec context key load deployment (codec.readBack value)
        (⟨0, deployment.wall, .perform cache.backend.id context (.get key.text), .error failure⟩ ::
          ((deployment.perform cache.backend.id context (.get key.text)).2.notes load ++
            [⟨0, wall, .perform cache.backend.id context (.set key.text (codec.encode value) ttl),
              stored⟩]))

/-- A reading that runs in a deployment loads once. -/
def LoadsOnce (cache : EntityCache) (codec : Codec α) (context : Context) (key : DomainKey)
    (load : Compute α) (deployment : Deployment) (reading : Program (Except CacheError α)) : Prop :=
  cache.Loading codec context key load deployment (deployment.run reading).1
    (deployment.notes reading)

/-- A key without an entry is looked up in vain, under any context. -/
theorem exists_failure_of_missing (serves : deployment.Serves cache.backend store) {key : Bytes}
    (missing : store.entries.find? (store.options.fullKey key) = none) (context : Context) :
    ∃ failure, (deployment.perform cache.backend.id context (.get key)).1 = .error failure := by
  obtain ⟨answer, -, -⟩ := Deployment.store?_perform serves.here context (.get key)
  cases given : (deployment.perform cache.backend.id context (.get key)).1 with
  | error failure => exact ⟨failure, rfl⟩
  | ok data =>
      obtain ⟨entry, found, -, -⟩ := Store.live_of_get (answer.symm.trans given)
      cases missing.symm.trans found

theorem cached_eq (cache : EntityCache) (codec : Codec α) (context : Context) (key : DomainKey)
    (ttl : Duration) (load : Compute α) : cache.cached codec context key ttl load =
      .ask (.perform cache.backend.id context (.get key.text)) fun answer =>
        cache.documents.afterLookup codec context key.text
          (load.bind fun result => .done (result.map fun value => (value, ttl))) (codec.read answer) :=
  ReadThrough.getOrSetJson_eq _ _ _ _ _

/-- **A reading that finds nothing** loads. -/
theorem loadsOnce_cached (codec : Codec α) {key : DomainKey} {failure : CacheError}
    (missed : (deployment.perform cache.backend.id context (.get key.text)).1 = .error failure)
    (ttl : Duration) (load : Compute α) :
    cache.LoadsOnce codec context key load deployment
      (cache.cached codec context key ttl load) := by
  have asked : (Deployment.answer (.perform cache.backend.id context (.get key.text)) deployment).1 =
      .error failure := missed
  rw [LoadsOnce, cached_eq, Deployment.run, Deployment.notes, Program.run, Program.notes]
  dsimp only
  rw [asked]
  dsimp only [Codec.read, ReadThrough.afterLookup]
  -- The lifetime is put beside what was loaded, which asks nothing.
  rw [Program.bind_assoc, Program.run_bind, Program.notes_bind]
  cases loads : (load.run Deployment.answer
      (Deployment.answer (.perform cache.backend.id context (.get key.text)) deployment).2).1 with
  | error reason =>
      show cache.Loading codec context key load deployment (.error (.computeFailed reason))
        (_ :: (_ ++ []))
      rw [List.append_nil]
      exact .failed loads
  | ok value => exact .loaded loads

/-- **What was forgotten is loaded again**, under any context. -/
theorem Forgets.loadsOnce {gone : Bytes → Prop} {run : Except CacheError Unit × Deployment}
    (forgets : cache.Forgets gone store run) {key : DomainKey} (lost : gone key.text)
    (codec : Codec α) (context : Context) (ttl : Duration) (load : Compute α) :
    cache.LoadsOnce codec context key load run.2 (cache.cached codec context key ttl load) := by
  obtain ⟨after, serves, loses⟩ := forgets.exactly
  obtain ⟨failure, missed⟩ := exists_failure_of_missing serves (loses.find?_eq_none lost) context
  exact loadsOnce_cached codec missed ttl load

/-! ### Users and products -/

/-- The keys that are forgotten with a user: its own, and all that begin like a list of users. -/
def GoneWithUser (id key : Bytes) : Prop :=
  key = utf8 "user:" ++ id ∨ utf8 "users:" <+: key

/-- The keys that are forgotten with a product: its own, that of its price, and all that begin like a list
of products. -/
def GoneWithProduct (id key : Bytes) : Prop :=
  key = utf8 "product:" ++ id ∨ key = utf8 "product_price:" ++ id ∨ utf8 "products:" <+: key

theorem forgets_invalidateUser (serves : deployment.Serves cache.backend store)
    (live : deployment.standing context = .live) (id : Bytes) :
    cache.Forgets (GoneWithUser id) store (deployment.run (cache.invalidateUser context id)) := by
  obtain ⟨succeeds, after, serves', loses⟩ := cache.forgets_forgetAll serves live
    [(DomainKey.user id).text] [DomainKey.usersPattern]
  refine ⟨succeeds, after, serves', loses.congr fun key => ?_⟩
  simp only [List.mem_singleton, exists_eq_left, DomainKey.accepts_usersPattern_iff]
  rfl

theorem forgets_invalidateProduct (serves : deployment.Serves cache.backend store)
    (live : deployment.standing context = .live) (id : Bytes) :
    cache.Forgets (GoneWithProduct id) store
      (deployment.run (cache.invalidateProduct context id)) := by
  obtain ⟨succeeds, after, serves', loses⟩ := cache.forgets_forgetAll serves live
    [(DomainKey.product id).text, (DomainKey.productPrice id).text] [DomainKey.productsPattern]
  refine ⟨succeeds, after, serves', loses.congr fun key => ?_⟩
  simp only [List.mem_cons, List.not_mem_nil, or_false, exists_eq_left, or_assoc,
    DomainKey.accepts_productsPattern_iff]
  rfl

/-- The beginning of a page of users. -/
theorem prefix_usersPage (page limit : Nat) :
    utf8 "users:" <+: (DomainKey.usersPage page limit).text := List.prefix_append _ _

theorem prefix_productsPage (page limit : Nat) :
    utf8 "products:" <+: (DomainKey.productsPage page limit).text := List.prefix_append _ _

/-- **Forgetting is exact.**  To forget a user or a product succeeds and takes away just the keys that go
with it; and when the entity or any page of a list is read right afterwards, it is loaded once. -/
theorem forgets_exactly (cache : EntityCache) (serves : deployment.Serves cache.backend store)
    (live : deployment.standing context = .live) (id : Bytes) :
    (let forgotten := deployment.run (cache.invalidateUser context id);
      cache.Forgets (GoneWithUser id) store forgotten ∧
        ∀ {α : Type} (codec : Codec α) (context : Context) (load : Compute α),
          cache.LoadsOnce codec context (.user id) load forgotten.2
              (cache.user codec context id load) ∧
            ∀ page limit, cache.LoadsOnce codec context (.usersPage page limit) load forgotten.2
              (cache.usersPage codec context page limit load)) ∧
    (let forgotten := deployment.run (cache.invalidateProduct context id);
      cache.Forgets (GoneWithProduct id) store forgotten ∧
        ∀ {α : Type} (codec : Codec α) (context : Context) (load : Compute α),
          cache.LoadsOnce codec context (.product id) load forgotten.2
              (cache.product codec context id load) ∧
            cache.LoadsOnce codec context (.productPrice id) load forgotten.2
              (cache.productPrice codec context id load) ∧
            ∀ page limit, cache.LoadsOnce codec context (.productsPage page limit) load forgotten.2
              (cache.productsPage codec context page limit load)) := by
  have user := forgets_invalidateUser serves live id
  have product := forgets_invalidateProduct serves live id
  refine ⟨⟨user, fun codec context load => ⟨?_, fun page limit => ?_⟩⟩,
    product, fun codec context load => ⟨?_, ?_, fun page limit => ?_⟩⟩
  · exact user.loadsOnce (.inl rfl) codec context _ load
  · exact user.loadsOnce (.inr (prefix_usersPage page limit)) codec context _ load
  · exact product.loadsOnce (.inl rfl) codec context _ load
  · exact product.loadsOnce (.inr (.inl rfl)) codec context _ load
  · exact product.loadsOnce (.inr (.inr (prefix_productsPage page limit))) codec context _ load

/-- A cache of entities. -/
def sampleCache : EntityCache :=
  ⟨((Deployment.start 0).addLocal .standard Sweeper.standardInterval).1, .standard⟩

/-- It has something under keys of two products, one of which has a star for an id, and under keys that look
like those of lists. -/
def sampleStocked : Deployment :=
  let keys := [utf8 "product:*", utf8 "product:7", utf8 "product_price:*", utf8 "product_price:7",
    utf8 "products:page:1:limit:9", utf8 "products:", utf8 "products", utf8 "session:*"]
  (((Deployment.start 0).addLocal .standard Sweeper.standardInterval).2.perform sampleCache.backend.id
    .background (.setMany (.ofList (keys.map fun key => (key, utf8 "0"))) .zero)).2

/-- The star is no pattern: the other product stays.  So does what only looks like the keys of a list. -/
theorem forgets_exactly_sampleStocked :
    let forgotten := sampleStocked.run (sampleCache.invalidateProduct .background (utf8 "*"))
    (∃ store, sampleStocked.Serves sampleCache.backend store ∧
      sampleStocked.standing .background = .live ∧
      sampleCache.Forgets (GoneWithProduct (utf8 "*")) store forgotten) ∧
      (forgotten.2.store? sampleCache.backend.id).map Store.logicalKeys =
        some [utf8 "product:7", utf8 "product_price:7", utf8 "products", utf8 "session:*"] ∧
      sampleCache.LoadsOnce .word64 .background (.productPrice (utf8 "*")) (.done (.ok 12)) forgotten.2
        (sampleCache.productPrice .word64 .background (utf8 "*") (.done (.ok 12))) := by
  intro forgotten
  have live : sampleStocked.standing .background = .live := rfl
  obtain ⟨store, serves⟩ : ∃ store, sampleStocked.Serves sampleCache.backend store :=
    ⟨_, by with_unfolding_all rfl, by with_unfolding_all rfl, by with_unfolding_all rfl⟩
  obtain ⟨-, forgets, loads⟩ := forgets_exactly sampleCache serves live (utf8 "*")
  exact ⟨⟨store, serves, live, forgets⟩, by decide +kernel, (loads .word64 .background _).2.1⟩

end EntityCache

end TimedCache
