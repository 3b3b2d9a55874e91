import TimedCache.Proofs.Deployment.Interlude
import TimedCache.Proofs.Documents
import TimedCache.Proofs.Store.OwnWrite

/-!
# Documents that heal

Whatever a backend holds under a key, reading a document through it leads to **a document that later
readings find**.  There may be nothing under the key, or something that has expired, that is no document
at all, or that is a document of another type: the reading computes the document and puts it in place of
what was there.

**The course of a reading** depends on whether the key has a live document of the type (`Store.Documents`).
If it has, the document is returned, and what would be computed is of no consequence.  Otherwise the
computation is run, and if it fails, nothing else happens.

**A first answer is the answer.**  What is returned of a computed value is read from the bytes that were
stored, and so is what later readings return (`ReadThrough.Settled`).  This needs no law of the type: if
a value is written in such a way that it is read back as another one, then that other one is returned
from the start.
-/

namespace TimedCache

variable {α : Type}

/-- A key has a live entry, and that is read as a value. -/
def Store.Documents (store : Store) (codec : Codec α) (now : Nat) (key : Bytes) (entry : Entry)
    (value : α) : Prop :=
  store.live? now key = some entry ∧ codec.decode entry.value = .ok value

namespace ReadThrough

/-- Whatever happens that leaves the key alone: until the entry expires, every look-up and every reading
of the key gives the value, and no reading computes anything. -/
def Settled (cache : ReadThrough) (codec : Codec α) (key : Bytes) (entry : Entry) (value : α)
    (deployment : Deployment) : Prop :=
  ∀ incidents : List Incident, (∀ incident ∈ incidents, incident.Leaves cache.backend.id key) →
    ∀ context, (deployment.reach incidents).standing context = .live →
      entry.isExpired (deployment.reach incidents).wall = false →
        let looked := (deployment.reach incidents).run (cache.getJson codec context key)
        looked.1 = .ok value ∧ ∀ compute,
          (deployment.reach incidents).run (cache.getOrSetJson codec context key compute) = looked

variable {cache : ReadThrough} {codec : Codec α} {context : Context} {key : Bytes}
  {deployment : Deployment} {store : Store} {entry : Entry} {value : α}

/-- What is shown under a key, and can be read, is settled. -/
theorem settled_of_shows (shows : deployment.Shows cache.backend key (some entry))
    (decoded : codec.decode entry.value = .ok value) :
    cache.Settled codec key entry value deployment := by
  intro incidents leaves context live unexpired
  have answered := (shows.reach leaves).perform_get_of_unexpired unexpired live
  have read : codec.read (.ok entry.value) = .ok value := Codec.read_eq_ok_iff.mpr decoded
  rw [getJson_eq, Deployment.run_asked, answered, read]
  refine ⟨rfl, fun compute => ?_⟩
  rw [getOrSetJson_eq, Deployment.run_asked, answered, read]
  rfl

/-! ### Readings -/

section Reading

variable (cache codec context key)

/-- The look-up of a reading: its answer, and what it leaves. -/
abbrev looking (deployment : Deployment) : Except CacheError Bytes × Deployment :=
  deployment.perform cache.backend.id context (.get key)

/-- The note of the look-up. -/
def lookedUp (deployment : Deployment) : Note :=
  ⟨0, deployment.wall, .perform cache.backend.id context (.get key),
    (cache.looking context key deployment).1⟩

/-- A reading amid incidents, which begins with its look-up. -/
def reading (compute : Compute (α × Duration)) (gaps : List (List Incident))
    (deployment : Deployment) : Passage (Except CacheError α) :=
  Deployment.runAmid ([] :: gaps) (cache.getOrSetJson codec context key compute) deployment

/-- The computation of a reading that has looked its key up in vain. -/
def computing (compute : Compute (α × Duration)) (gaps : List (List Incident))
    (deployment : Deployment) : Passage (Except Bytes (α × Duration)) :=
  Deployment.runAmid gaps compute (cache.looking context key deployment).2

/-- The deployment that the write of a reading meets, once the computation has come to its end. -/
def met (compute : Compute (α × Duration)) (gaps : List (List Incident)) (deployment : Deployment) :
    Deployment :=
  let computing := cache.computing context key compute gaps deployment
  computing.deployment.reach ((gaps.drop computing.notes.length).headD [])

/-- The write of a reading. -/
abbrev keep (value : α) (ttl : Duration) : Operation :=
  .set key (codec.encode value) (cache.lifetime ttl)

/-- A computation that asks nothing ends right after the look-up. -/
theorem met_done (outcome : Except Bytes (α × Duration)) (gaps : List (List Incident))
    (deployment : Deployment) :
    cache.met context key (.done outcome) gaps deployment =
      (cache.looking context key deployment).2.reach (gaps.headD []) := rfl

end Reading

variable {compute : Compute (α × Duration)} {gaps : List (List Incident)}

/-- After its look-up, a reading goes on as the answer tells. -/
theorem reading_eq (cache : ReadThrough) (codec : Codec α) (context : Context) (key : Bytes)
    (compute : Compute (α × Duration)) (gaps : List (List Incident)) (deployment : Deployment) :
    let looked := cache.looking context key deployment
    let rest := Deployment.runAmid gaps
      (cache.afterLookup codec context key compute (codec.read looked.1)) looked.2
    cache.reading codec context key compute gaps deployment =
      ⟨rest.result, cache.lookedUp context key deployment :: rest.notes, rest.deployment⟩ := by
  intro looked rest
  rw [reading, getOrSetJson_eq, Deployment.runAmid_ask]
  rfl

/-- A reading whose look-up gives a value is at its end. -/
theorem reading_of_read
    (read : codec.read (cache.looking context key deployment).1 = .ok value) :
    cache.reading codec context key compute gaps deployment =
      ⟨.ok value, [cache.lookedUp context key deployment],
        (cache.looking context key deployment).2⟩ := by
  rw [reading_eq, read]
  rfl

/-- A reading whose look-up is in vain computes, and goes on with what comes out. -/
theorem reading_of_unread {failure : CacheError}
    (unread : codec.read (cache.looking context key deployment).1 = .error failure) :
    let computing := cache.computing context key compute gaps deployment
    let rest := Deployment.runAmid (gaps.drop computing.notes.length)
      (cache.afterCompute codec context key computing.result) computing.deployment
    cache.reading codec context key compute gaps deployment =
      ⟨rest.result, cache.lookedUp context key deployment :: (computing.notes ++ rest.notes),
        rest.deployment⟩ := by
  intro computing rest
  rw [reading_eq, unread, afterLookup, Deployment.runAmid_bind]
  rfl

/-- A reading that could not compute is at its end. -/
theorem reading_of_failed {failure : CacheError}
    (unread : codec.read (cache.looking context key deployment).1 = .error failure)
    {reason : Bytes}
    (fails : (cache.computing context key compute gaps deployment).result = .error reason) :
    let computing := cache.computing context key compute gaps deployment
    cache.reading codec context key compute gaps deployment =
      ⟨.error (.computeFailed reason),
        cache.lookedUp context key deployment :: computing.notes, computing.deployment⟩ := by
  intro computing
  rw [reading_of_unread unread, fails, afterCompute, Deployment.runAmid, List.append_nil]

/-- A reading that has computed a value writes it, and reads it back. -/
theorem reading_of_computed {failure : CacheError}
    (unread : codec.read (cache.looking context key deployment).1 = .error failure)
    {computed : α} {ttl : Duration}
    (computes : (cache.computing context key compute gaps deployment).result =
      .ok (computed, ttl)) :
    let computing := cache.computing context key compute gaps deployment
    let met := cache.met context key compute gaps deployment
    let write := cache.keep codec key computed ttl
    let written := met.perform cache.backend.id context write
    cache.reading codec context key compute gaps deployment =
      ⟨codec.readBack computed,
        cache.lookedUp context key deployment :: (computing.notes ++
          [⟨0, met.wall, .perform cache.backend.id context write, written.1⟩]), written.2⟩ := by
  intro computing met write written
  rw [reading_of_unread unread, computes, afterCompute, Deployment.runAmid_ask]
  rfl

/-! ### Look-ups -/

/-- The look-up is answered by what is live. -/
theorem looking_fst (serves : deployment.Serves cache.backend store)
    (live : deployment.standing context = .live) (key : Bytes) :
    (cache.looking context key deployment).1 =
      ((store.live? deployment.wall key).map Entry.value).elim (.error (.notFound key)) .ok := by
  obtain ⟨answered, -, -⟩ := Deployment.store?_perform serves.here context (.get key)
  rw [looking, answered, live, Store.perform_of_open serves.isOpen, Store.carryOut_get]

/-- A live document is read by the look-up. -/
theorem read_of_documents (serves : deployment.Serves cache.backend store)
    (live : deployment.standing context = .live)
    (documents : store.Documents codec deployment.wall key entry value) :
    codec.read (cache.looking context key deployment).1 = .ok value := by
  obtain ⟨held, decoded⟩ := documents
  rw [looking_fst serves live, held]
  exact Codec.read_eq_ok_iff.mpr decoded

/-- Without a live document, the look-up is in vain. -/
theorem unread_of_undocumented (serves : deployment.Serves cache.backend store)
    (live : deployment.standing context = .live)
    (undocumented : ∀ entry value, ¬store.Documents codec deployment.wall key entry value) :
    ∃ failure, codec.read (cache.looking context key deployment).1 = .error failure := by
  rw [looking_fst serves live]
  cases held : store.live? deployment.wall key with
  | none => exact ⟨_, rfl⟩
  | some entry =>
      show ∃ failure, (codec.decode entry.value).mapError _ = _
      cases decoded : codec.decode entry.value with
      | error fault => exact ⟨_, rfl⟩
      | ok value => exact absurd ⟨held, decoded⟩ (undocumented entry value)

/-- What the look-up has found is shown behind it. -/
theorem shows_of_live? (serves : deployment.Serves cache.backend store)
    (held : store.live? deployment.wall key = some entry) (context : Context) :
    (cache.looking context key deployment).2.Shows cache.backend key (some entry) := by
  have shows : deployment.Shows cache.backend key (some entry) := by
    refine ⟨store, serves, held.trans ?_⟩
    rw [Option.filter_some, Store.isExpired_of_live? held]
    rfl
  exact shows.perform context fun _ => rfl

/-! ### Healing -/

/-- What becomes of a reading, whatever the key has. -/
structure Heals (cache : ReadThrough) (codec : Codec α) (context : Context) (key : Bytes)
    (compute : Compute (α × Duration)) (gaps : List (List Incident)) (deployment : Deployment)
    (store : Store) : Prop where
  /-- A live document is returned, and nothing is asked but the look-up.  The document stays. -/
  hit : ∀ {entry value}, store.Documents codec deployment.wall key entry value →
    cache.reading codec context key compute gaps deployment =
        ⟨.ok value, [cache.lookedUp context key deployment],
          (cache.looking context key deployment).2⟩ ∧
      cache.Settled codec key entry value (cache.looking context key deployment).2
  /-- Without one, the computation is run.  If it fails, so does the reading. -/
  failed : (∀ entry value, ¬store.Documents codec deployment.wall key entry value) →
    let computing := cache.computing context key compute gaps deployment
    ∀ {reason}, computing.result = .error reason →
      cache.reading codec context key compute gaps deployment =
        ⟨.error (.computeFailed reason),
          cache.lookedUp context key deployment :: computing.notes, computing.deployment⟩
  /-- If it gives a value, that is written, and read back from what was written.  If the write meets an
  open store under a live context, then the entry is in place, and what is returned is settled. -/
  kept : (∀ entry value, ¬store.Documents codec deployment.wall key entry value) →
    let computing := cache.computing context key compute gaps deployment
    let met := cache.met context key compute gaps deployment
    ∀ {computed ttl}, computing.result = .ok (computed, ttl) →
      let write := cache.keep codec key computed ttl
      let written := met.perform cache.backend.id context write
      let entry := Entry.write met.wall (codec.encode computed)
        (cache.backend.options.lifetime (cache.lifetime ttl))
      cache.reading codec context key compute gaps deployment =
          ⟨codec.readBack computed,
            cache.lookedUp context key deployment :: (computing.notes ++
              [⟨0, met.wall, .perform cache.backend.id context write, written.1⟩]), written.2⟩ ∧
        ∀ during, met.Serves cache.backend during → met.standing context = .live →
          written.2.Shows cache.backend key (some entry) ∧
            entry.isExpired written.2.wall =
              !cache.backend.options.lasts written.2.wall (cache.lifetime ttl) ∧
            ∀ value, codec.readBack computed = .ok value →
              cache.Settled codec key entry value written.2
  /-- A reading that fails to compute writes nothing. -/
  nothing : ∀ {reason},
    (cache.reading codec context key compute gaps deployment).result =
        .error (.computeFailed reason) →
      let computing := cache.computing context key compute gaps deployment
      cache.reading codec context key compute gaps deployment =
        ⟨.error (.computeFailed reason),
          cache.lookedUp context key deployment :: computing.notes, computing.deployment⟩

/-- **A first answer is what later readings give, and a bad entry heals.**  On an open store under a live
context, whatever the key has, and whatever happens while the reading computes. -/
theorem getOrSetJson_heals (serves : deployment.Serves cache.backend store)
    (live : deployment.standing context = .live) (codec : Codec α) (key : Bytes)
    (compute : Compute (α × Duration)) (gaps : List (List Incident)) :
    cache.Heals codec context key compute gaps deployment store where
  hit := by
    rintro entry value ⟨held, decoded⟩
    exact ⟨reading_of_read (read_of_documents serves live ⟨held, decoded⟩),
      settled_of_shows (shows_of_live? serves held context) decoded⟩
  failed := by
    intro undocumented computing reason fails
    obtain ⟨failure, unread⟩ := unread_of_undocumented serves live undocumented
    exact reading_of_failed unread fails
  kept := by
    intro undocumented computing met computed ttl computes write written entry
    obtain ⟨failure, unread⟩ := unread_of_undocumented serves live undocumented
    refine ⟨reading_of_computed unread computes, fun during serves' live' => ?_⟩
    obtain ⟨-, shows⟩ :=
      serves'.perform_set live' key (codec.encode computed) (cache.lifetime ttl)
    have wall : written.2.wall = met.wall := met.wall_perform cache.backend.id context write
    refine ⟨shows, ?_, fun value back => ?_⟩
    · rw [wall]
      exact Entry.isExpired_write_self _ _ _ _
    · exact settled_of_shows shows (Codec.read_eq_ok_iff.mp back)
  nothing := by
    intro reason fails computing
    cases read : codec.read (cache.looking context key deployment).1 with
    | ok value =>
        rw [reading_of_read read] at fails
        cases fails
    | error failure =>
        cases outcome : (cache.computing context key compute gaps deployment).result with
        | error other =>
            have course := reading_of_failed read outcome
            rw [course] at fails
            cases fails
            exact course
        | ok result =>
            obtain ⟨computed, ttl⟩ := result
            rw [reading_of_computed read outcome] at fails
            exact absurd fails (codec.read_ne_computeFailed _ reason)

/-- Under a key that holds a list, a reading of a number computes it, while time passes and another key is
deleted.  Nine milliseconds after it was written for ten, the number is found. -/
theorem getOrSetJson_heals_list :
    let made := (Deployment.start 1700000000000).addLocal .standard Sweeper.standardInterval
    let cache := ReadThrough.of made.1
    let listed := (made.2.perform made.1.id .background (.set (utf8 "k") (utf8 "[7]") .zero)).2
    let compute : Compute (Nat × Duration) := .done (.ok (7, .ofMillis 10))
    let gaps := [[.advance (.ofMillis 3), .ask (.perform made.1.id .background (.delete (utf8 "K")))]]
    let reading := cache.reading .word64 .background (utf8 "k") compute gaps listed
    let later := reading.deployment.reach [.advance (.ofMillis 9), .sweep made.1.id]
    reading.result = .ok 7 ∧ reading.notes.length = 2 ∧
      (later.run (cache.getJson .word64 .background (utf8 "k"))).1 = .ok 7 := by
  intro made cache listed compute gaps reading later
  have always (deployment : Deployment) : deployment.standing .background = .live := rfl
  have made' := (Deployment.start 1700000000000).serves_addLocal .standard Sweeper.standardInterval
  have shows := (made'.perform_set (always made.2) (utf8 "k") (utf8 "[7]") .zero).2
  obtain ⟨store, serves, held⟩ := id shows
  have undocumented : ∀ entry value,
      ¬store.Documents Codec.word64 listed.wall (utf8 "k") entry value := by
    rintro entry value ⟨there, decoded⟩
    obtain ⟨written, -⟩ := Option.filter_eq_some_iff.mp (held.symm.trans there)
    cases written
    have unread : (Codec.word64.decode (utf8 "[7]")).toOption = none := by decide +kernel
    rw [show Codec.word64.decode (utf8 "[7]") = .ok value from decoded] at unread
    cases unread
  have heals : cache.Heals .word64 .background (utf8 "k") compute gaps listed store :=
    getOrSetJson_heals serves (always listed) .word64 (utf8 "k") compute gaps
  obtain ⟨course, placed⟩ := heals.kept undocumented rfl
  have looked : (cache.looking .background (utf8 "k") listed).2.Shows made.1 (utf8 "k") _ :=
    shows.perform .background fun _ => rfl
  have others : ∀ incident ∈ gaps.headD [], incident.Leaves made.1.id (utf8 "k") :=
    List.forall_mem_cons.mpr ⟨trivial, List.forall_mem_singleton.mpr fun _ => by decide⟩
  have met_eq : cache.met .background (utf8 "k") compute gaps listed = _ :=
    cache.met_done .background (utf8 "k") (.ok (7, .ofMillis 10)) gaps listed
  -- The list is still there when the number is written.
  obtain ⟨during, serves', -⟩ := looked.reach others
  rw [← met_eq] at serves'
  obtain ⟨-, -, settled⟩ := placed during serves' (always _)
  have course : reading = _ := course
  have back : Codec.word64.readBack 7 = .ok 7 := by decide +kernel
  have left : ∀ incident ∈ [Incident.advance (.ofMillis 9), .sweep made.1.id],
      incident.Leaves cache.backend.id (utf8 "k") :=
    List.forall_mem_cons.mpr ⟨trivial, List.forall_mem_singleton.mpr trivial⟩
  obtain ⟨found, -⟩ := settled 7 back _ left .background (always _) (by decide +kernel)
  show reading.result = _ ∧ _ ∧ ((reading.deployment.reach _).run _).1 = _
  rw [course]
  exact ⟨back, rfl, found⟩

end ReadThrough

end TimedCache
