import TimedCache.Proofs.Deployment.Backend
import TimedCache.Proofs.ResponseCache.Fingerprint
import TimedCache.Proofs.ResponseCache.Snapshot
import TimedCache.ResponseCache.Layer

/-!
# Every hit is justified

A response cache serves a run of requests, between which time passes and sweeps take place.  Each
request may meet another handler, and handlers may do anything but put something into the store of
the cache (`Happening.Sound`).

**What a visit does.**  A request bypasses the cache, is answered from it, or runs the handler
(`Visit.outcome_of_bypasses`, `Visit.outcome_of_found`, `Visit.outcome_of_missed`).  Only the last
can put something into the store, and that is a snapshot of what the handler has just returned
(`ResponseCache.run_store`).

**The invariant** is that the store is `Visit.Backed`: for every entry there is a visit that was
answered by its handler and has left this very entry behind.  A visit keeps the store backed by
itself and the visits before it (`Visit.backed_outcome`); time and sweeps only remove.  So every
visit of a run meets a store that is backed by the visits before it (`Visit.backed_of_split`).

**Hits.**  A hit is the replay of an entry that has not expired, under the fingerprint of the
request.  Where the digest has no collision, the visit behind the entry was made by a request that
is alike (`Visit.hit_justified`).
-/

namespace TimedCache

open Http

/-! ### Runs of requests -/

/-- What happens to a deployment in which a response cache serves requests. -/
inductive Happening where
  /-- A request comes in, and this handler stands behind the cache. -/
  | visit (handler : Handler) (request : Request)
  /-- Time passes. -/
  | advance (duration : Duration)
  /-- The sweeper makes a pass. -/
  | sweep

/-- The handler puts nothing into the store of the cache, and its responses have header fields with
proper names. -/
def Happening.Sound (backend : Nat) : Happening → Prop
  | .visit handler request =>
    (handler request).Always (Call.Spares backend) fun response => response.fields.Named
  | _ => True

/-- A request that comes in: the deployment that it meets, and the handler behind the cache. -/
structure Visit where
  before : Deployment
  handler : Handler
  request : Request

namespace Visit

/-- The key under which the cache looks for a response. -/
def key (cache : ResponseCache) (visit : Visit) : Bytes :=
  Fingerprint.key cache.policy.namespaceText cache.policy.vary visit.request

/-- The answer, and the deployment behind it. -/
def outcome (cache : ResponseCache) (visit : Visit) : Response × Deployment :=
  visit.before.run (cache.wrap visit.handler visit.request)

/-- What a lookup finds, and the deployment behind it. -/
def found (cache : ResponseCache) (visit : Visit) : Option Response × Deployment :=
  visit.before.run (cache.lookup (visit.key cache))

/-- What the handler returns behind the lookup, and the deployment behind it. -/
def handled (cache : ResponseCache) (visit : Visit) : Response × Deployment :=
  (visit.found cache).2.run (visit.handler visit.request)

/-- The entry that lies under the key of the visit when it is over. -/
def left? (cache : ResponseCache) (visit : Visit) : Option Entry :=
  ((visit.outcome cache).2.store? cache.backend.id).bind fun store =>
    store.entries.find? (store.options.fullKey (visit.key cache))

end Visit

/-- The visits of a run. -/
def ResponseCache.visits (cache : ResponseCache) : Deployment → List Happening → List Visit
  | _, [] => []
  | deployment, .visit handler request :: happenings =>
    ⟨deployment, handler, request⟩ ::
      cache.visits (Visit.outcome cache ⟨deployment, handler, request⟩).2 happenings
  | deployment, .advance duration :: happenings =>
    cache.visits (deployment.advance duration) happenings
  | deployment, .sweep :: happenings =>
    cache.visits (deployment.sweep cache.backend.id) happenings

/-! ### Steps of a visit -/

namespace ResponseCache

variable {cache : ResponseCache} {deployment : Deployment} {store : Store}

/-- One operation of the backend, under a context that is made for it. -/
def limited (cache : ResponseCache) (op : Operation) : Program op.Answer :=
  (Program.limitedContext cache.policy.backendTimeout).bind fun context =>
    Program.perform cache.backend.id context op

/-- A lookup is one operation, and what this finds is replayed. -/
theorem lookup_eq (cache : ResponseCache) (key : Bytes) :
    cache.lookup key = (do
      let answer ← cache.limited (.get key)
      return answer.toOption.bind cache.restore?) := by
  refine congrArg (Program.limitedContext cache.policy.backendTimeout).bind (funext fun context => ?_)
  refine congrArg (Program.perform cache.backend.id context (.get key)).bind (funext fun answer => ?_)
  cases answer <;> rfl

theorem run_lookup_eq (key : Bytes) {context : Context}
    (limited : Context.timeoutAt deployment.elapsed cache.policy.backendTimeout = context) :
    deployment.run (cache.lookup key) =
      ((deployment.perform cache.backend.id context (.get key)).1.toOption.bind cache.restore?,
        (deployment.perform cache.backend.id context (.get key)).2) := by
  have asked : deployment.run (cache.limited (.get key)) =
      deployment.perform cache.backend.id context (.get key) := limited ▸ rfl
  rw [lookup_eq, Deployment.run_bind, asked]
  rfl

/-- **A lookup** removes at most, takes no time, and finds what an entry that has not expired is
replayed as. -/
theorem run_lookup (here : deployment.store? cache.backend.id = some store) (key : Bytes) :
    (∃ after, (deployment.run (cache.lookup key)).2.store? cache.backend.id = some after ∧
        store.OnlyRemoves after) ∧
      (deployment.run (cache.lookup key)).2.wall = deployment.wall ∧
      ∀ response, (deployment.run (cache.lookup key)).1 = some response →
        ∃ entry, store.entries.find? (store.options.fullKey key) = some entry ∧
          entry.isExpired deployment.wall = false ∧
          cache.restore? entry.value = some response := by
  obtain ⟨context, limited⟩ : ∃ context,
      Context.timeoutAt deployment.elapsed cache.policy.backendTimeout = context := ⟨_, rfl⟩
  obtain ⟨answer, after, wall⟩ := Deployment.store?_perform here context (.get key)
  have removes := store.perform_onlyRemoves deployment.wall (deployment.standing context)
    (show Operation.puts (.get key) = false from rfl)
  rw [run_lookup_eq key limited]
  cases read : (deployment.perform cache.backend.id context (.get key)).1 with
  | error failure => exact ⟨⟨_, after, removes⟩, wall, fun response none => nomatch none⟩
  | ok data =>
      refine ⟨⟨_, after, removes⟩, wall, fun response replayed => ?_⟩
      obtain ⟨entry, found, fresh, value⟩ := Store.live_of_get (answer.symm.trans read)
      exact ⟨entry, found, fresh, value.symm ▸ replayed⟩

/-- **Storing** leaves the store as it is, or writes a snapshot of a response that qualifies. -/
theorem run_store (here : deployment.store? cache.backend.id = some store) (key : Bytes)
    (response : Response) :
    ∃ after, (deployment.run (cache.store key response)).2.store? cache.backend.id = some after ∧
      (after = store ∨ ∃ body, response.status = 200 ∧ response.body = .whole body ∧
        cache.policy.admits body = true ∧
        after = store.write deployment.wall key
          (Snapshot.capture 200 response.fields body cache.policy.excluded).json.text
          cache.policy.ttl) := by
  rw [ResponseCache.store]
  split
  next => exact ⟨store, here, .inl rfl⟩
  next qualifies =>
    rw [Bool.or_eq_true, decide_eq_true_eq, not_or, not_not] at qualifies
    cases content : response.body with
    | broken => exact ⟨store, here, .inl rfl⟩
    | whole body =>
        dsimp only
        split
        next admitted =>
          let context := Context.timeoutAt deployment.elapsed cache.policy.backendTimeout
          obtain ⟨-, after, -⟩ := Deployment.store?_perform here context (.set key
            (Snapshot.capture response.status response.fields body
              cache.policy.excluded).json.text cache.policy.ttl)
          refine ⟨_, after, ?_⟩
          rw [qualifies.1]
          -- The store refuses the write, or carries it out.
          unfold Store.perform
          rw [if_pos (show Operation.isData (.set _ _ _) = true from rfl)]
          split
          next => exact .inl rfl
          next => exact .inr ⟨body, rfl, rfl, admitted, rfl⟩
        next => exact ⟨store, here, .inl rfl⟩

end ResponseCache

/-! ### Outcomes -/

namespace Visit

variable {cache : ResponseCache} {visit : Visit}

/-- A request that bypasses the cache is answered by the handler. -/
theorem outcome_of_bypasses (bypasses : cache.policy.bypasses visit.request = true) :
    visit.outcome cache =
      (ResponseCache.tagged (visit.before.run (visit.handler visit.request)).1 "MISS",
        (visit.before.run (visit.handler visit.request)).2) := by
  rw [outcome, ResponseCache.wrap, if_pos bypasses, Deployment.run_bind]
  rfl

/-- A request that is eligible is answered by what is found, or by the handler. -/
theorem outcome_of_eligible (eligible : cache.policy.bypasses visit.request = false) :
    visit.outcome cache = (visit.found cache).2.run
      (match (visit.found cache).1 with
        | some response => pure (ResponseCache.tagged response "HIT")
        | none => do
          let response ← visit.handler visit.request
          let response ← cache.store (visit.key cache) response
          return ResponseCache.tagged response "MISS") := by
  rw [outcome, ResponseCache.wrap, if_neg (Bool.eq_false_iff.mp eligible), Deployment.run_bind]
  rfl

/-- **A hit** is what was found, and nothing is done but the lookup. -/
theorem outcome_of_found (eligible : cache.policy.bypasses visit.request = false)
    {response : Response} (found : (visit.found cache).1 = some response) :
    visit.outcome cache = (ResponseCache.tagged response "HIT", (visit.found cache).2) := by
  rw [outcome_of_eligible eligible, found]
  rfl

/-- **A miss** is what the handler returns, behind an attempt to store it. -/
theorem outcome_of_missed (eligible : cache.policy.bypasses visit.request = false)
    (missed : (visit.found cache).1 = none) :
    visit.outcome cache =
      (ResponseCache.tagged ((visit.handled cache).2.run
          (cache.store (visit.key cache) (visit.handled cache).1)).1 "MISS",
        ((visit.handled cache).2.run
          (cache.store (visit.key cache) (visit.handled cache).1)).2) := by
  rw [outcome_of_eligible eligible, missed]
  dsimp only
  rw [Deployment.run_bind, Deployment.run_bind]
  rfl

/-- Only what was found is tagged as a hit. -/
theorem found_of_hit (hit : (visit.outcome cache).1.fields.values cacheTag = [utf8 "HIT"]) :
    cache.policy.bypasses visit.request = false ∧
      ∃ response, (visit.found cache).1 = some response := by
  have notMiss : ∀ response : Response,
      (ResponseCache.tagged response "MISS").fields.values cacheTag ≠ [utf8 "HIT"] := by
    intro response
    rw [ResponseCache.tagged, Fields.values_replace_self]
    decide
  cases bypasses : cache.policy.bypasses visit.request with
  | true =>
      rw [outcome_of_bypasses bypasses] at hit
      exact absurd hit (notMiss _)
  | false =>
      cases found : (visit.found cache).1 with
      | some response => exact ⟨rfl, response, rfl⟩
      | none =>
          rw [outcome_of_missed bypasses found] at hit
          exact absurd hit (notMiss _)

/-! ### The invariant -/

/-- The visit was answered by its handler and has left the entry behind. -/
structure Stored (cache : ResponseCache) (visit : Visit) (entry : Entry) : Prop where
  eligible : cache.policy.bypasses visit.request = false
  missed : (visit.found cache).1 = none
  named : (visit.handled cache).1.fields.Named
  status : (visit.handled cache).1.status = 200
  body : ∃ body, (visit.handled cache).1.body = .whole body ∧ cache.policy.admits body = true ∧
    entry = .write (visit.handled cache).2.wall
      (Snapshot.capture 200 (visit.handled cache).1.fields body cache.policy.excluded).json.text
      (some cache.policy.ttl)
  left : visit.left? cache = some entry

/-- Every entry of the store was left behind by one of the visits. -/
def Backed (cache : ResponseCache) (visits : List Visit) (store : Store) : Prop :=
  ∀ full entry, store.entries.find? full = some entry →
    ∃ visit ∈ visits, full = store.options.fullKey (visit.key cache) ∧ visit.Stored cache entry

theorem Backed.of_onlyRemoves {visits : List Visit} {store after : Store}
    (backed : Backed cache visits store) (removes : store.OnlyRemoves after) :
    Backed cache visits after := by
  intro full entry found
  rw [removes.options]
  exact backed full entry (removes.sub found)

theorem Backed.append {visits : List Visit} {store : Store} (backed : Backed cache visits store)
    (more : List Visit) : Backed cache (visits ++ more) store := by
  intro full entry found
  obtain ⟨visit, mem, key, stored⟩ := backed full entry found
  exact ⟨visit, List.mem_append_left more mem, key, stored⟩

/-- A store that is backed is still backed when a visit has written an entry of its own. -/
theorem Backed.write {visits : List Visit} {store : Store} (backed : Backed cache visits store)
    (lasting : cache.policy.ttl.isZero = false) {now : Nat} {value : Bytes}
    (stored : (store.write now (visit.key cache) value cache.policy.ttl).entries.find?
        (store.options.fullKey (visit.key cache)) =
          some (.write now value (some cache.policy.ttl)) →
      visit.Stored cache (.write now value (some cache.policy.ttl))) :
    Backed cache (visits ++ [visit])
      (store.write now (visit.key cache) value cache.policy.ttl) := by
  have lifetime : store.options.lifetime cache.policy.ttl = some cache.policy.ttl := by
    simp [Options.lifetime, Duration.orDefault, lasting]
  have new : store.newEntry now value cache.policy.ttl =
      .write now value (some cache.policy.ttl) := by rw [Store.newEntry, lifetime]
  intro full entry found
  have found : (store.entries.insert (store.options.fullKey (visit.key cache))
      (.write now value (some cache.policy.ttl))).find? full = some entry := new ▸ found
  rw [Table.find?_insert] at found
  split at found
  next same =>
    cases found
    refine ⟨visit, List.mem_append_right visits List.mem_cons_self, same, stored ?_⟩
    show (store.entries.insert _ (store.newEntry now value cache.policy.ttl)).find? _ = _
    rw [new, Table.find?_insert, if_pos rfl]
  next => exact backed.append [visit] full entry found

/-- **A visit keeps the store backed**, by itself and the visits before it. -/
theorem backed_outcome {visits : List Visit} {store : Store}
    (lasting : cache.policy.ttl.isZero = false)
    (sound : (visit.handler visit.request).Always (Call.Spares cache.backend.id)
      fun response => response.fields.Named)
    (here : visit.before.store? cache.backend.id = some store)
    (backed : Backed cache visits store) :
    ∃ after, (visit.outcome cache).2.store? cache.backend.id = some after ∧
      Backed cache (visits ++ [visit]) after := by
  cases bypasses : cache.policy.bypasses visit.request with
  | true =>
      obtain ⟨-, after, there, removes⟩ := Deployment.onlyRemoves_run sound here
      rw [outcome_of_bypasses bypasses]
      exact ⟨after, there, (backed.of_onlyRemoves removes).append [visit]⟩
  | false =>
      obtain ⟨⟨looked, here, removes⟩, -, -⟩ := ResponseCache.run_lookup here (visit.key cache)
      have backed := backed.of_onlyRemoves removes
      cases found : (visit.found cache).1 with
      | some response =>
          rw [outcome_of_found bypasses found]
          exact ⟨looked, here, backed.append [visit]⟩
      | none =>
          obtain ⟨named, handled, here, removes⟩ := Deployment.onlyRemoves_run sound here
          have backed := backed.of_onlyRemoves removes
          obtain ⟨after, there, written⟩ := ResponseCache.run_store here (visit.key cache)
            (visit.handled cache).1
          have outcome := outcome_of_missed bypasses found
          have there : (visit.outcome cache).2.store? cache.backend.id = some after := by
            rw [outcome]
            exact there
          refine ⟨after, there, ?_⟩
          rcases written with rfl | ⟨body, status, whole, admitted, rfl⟩
          · exact backed.append [visit]
          · refine backed.write lasting fun left => ⟨bypasses, found, named, status,
              ⟨body, whole, admitted, rfl⟩, ?_⟩
            rw [left?, there]
            exact left

/-- **Every visit of a run meets a store that is backed** by the visits before it. -/
theorem backed_of_split {deployment : Deployment} {store : Store} {visits : List Visit}
    {happenings : List Happening} {earlier later : List Visit} {present : Visit}
    (lasting : cache.policy.ttl.isZero = false)
    (sound : ∀ happening ∈ happenings, happening.Sound cache.backend.id)
    (here : deployment.store? cache.backend.id = some store) (backed : Backed cache visits store)
    (split : cache.visits deployment happenings = earlier ++ present :: later) :
    ∃ met, present.before.store? cache.backend.id = some met ∧
      Backed cache (visits ++ earlier) met := by
  induction happenings generalizing deployment store visits earlier with
  | nil => exact absurd split.symm (List.append_ne_nil_of_right_ne_nil earlier (List.cons_ne_nil _ _))
  | cons happening happenings ih =>
      have soundRest := fun other mem => sound other (List.mem_cons_of_mem happening mem)
      cases happening with
      | visit handler request =>
          rw [ResponseCache.visits] at split
          cases earlier with
          | nil =>
              obtain ⟨rfl, -⟩ := List.cons.inj split
              exact ⟨store, here, backed.append []⟩
          | cons first earlier =>
              obtain ⟨rfl, rest⟩ := List.cons.inj split
              obtain ⟨after, there, backed⟩ := @backed_outcome cache
                ⟨deployment, handler, request⟩ _ _ lasting (sound _ List.mem_cons_self) here backed
              rw [List.append_cons]
              exact ih soundRest there backed rest
      | advance duration =>
          obtain ⟨after, there, removes⟩ := Deployment.onlyRemoves_advanceTo here
            (deployment.elapsed + duration.nanos)
          exact ih soundRest there (backed.of_onlyRemoves removes) split
      | sweep =>
          obtain ⟨after, there, removes⟩ := Deployment.onlyRemoves_sweep here cache.backend.id
          exact ih soundRest there (backed.of_onlyRemoves removes) split

/-! ### Hits -/

/-- What the handler returned to the first visit, and what was kept of it, justifies the answer to
the second. -/
structure Justifies (cache : ResponseCache) (visit present : Visit) : Prop where
  eligible : cache.policy.bypasses visit.request = false
  missed : (visit.found cache).1 = none
  alike : Fingerprint.Alike cache.policy.vary visit.request present.request
  status : (visit.handled cache).1.status = 200 ∧ (present.outcome cache).1.status = 200
  /-- The bodies are the same, and the entry is stored at the time at which the handler is done. -/
  body : ∃ body, (visit.handled cache).1.body = .whole body ∧
    (present.outcome cache).1.body = .whole body ∧
    body ≠ [] ∧ body.length ≤ cache.policy.maxBody ∧
    visit.left? cache = some (.write (visit.handled cache).2.wall
      (Snapshot.capture 200 (visit.handled cache).1.fields body cache.policy.excluded).json.text
      (some cache.policy.ttl))
  /-- The lifetime has not passed since. -/
  fresh : (present.outcome cache).2.wall <
    (visit.handled cache).2.wall + cache.policy.ttl.wholeMillis
  values : ∀ name, name ∉ cache.policy.excluded → name ≠ cacheTag →
    (present.outcome cache).1.fields.values name =
      ((visit.handled cache).1.fields.values name).filter isVisible

/-- What was captured of a response is restored with its status, its body, and its values that are
text. -/
theorem restore?_capture {fields : Fields} (named : fields.Named) (body : Bytes) :
    cache.restore? (Snapshot.capture 200 fields body cache.policy.excluded).json.text =
      some ⟨200, (Snapshot.capture 200 fields body cache.policy.excluded).replayFields
        cache.policy.excluded, .whole body⟩ := by
  rw [ResponseCache.restore?, Snapshot.decode_json_capture (by decide) named]
  rfl

/-- An entry is expired once its lifetime has passed. -/
theorem lt_of_not_isExpired {written now : Nat} {value : Bytes} {lifetime : Duration}
    (fresh : (Entry.write written value (some lifetime)).isExpired now = false) :
    now < written + lifetime.wholeMillis := by
  have early : ¬Entry.expiry written lifetime ≤ now := of_decide_eq_false fresh
  have bound : Entry.expiry written lifetime ≤ written + lifetime.wholeMillis % word64 :=
    Nat.min_le_left _ _
  have cut : lifetime.wholeMillis % word64 ≤ lifetime.wholeMillis := Nat.mod_le _ _
  omega

/-- An entry that a visit has left behind justifies a hit on it that is not too late. -/
theorem Stored.justifies {present : Visit} {entry : Entry} {response : Response}
    (stored : visit.Stored cache entry)
    (alike : Fingerprint.Alike cache.policy.vary visit.request present.request)
    (restored : cache.restore? entry.value = some response)
    (answer : (present.outcome cache).1 = ResponseCache.tagged response "HIT")
    (fresh : entry.isExpired (present.outcome cache).2.wall = false) :
    visit.Justifies cache present := by
  obtain ⟨body, whole, admitted, rfl⟩ := stored.body
  obtain rfl := Option.some.inj (restored.symm.trans (restore?_capture stored.named body))
  rw [CachePolicy.admits, Bool.and_eq_true, Bool.not_eq_true', List.isEmpty_eq_false_iff,
    decide_eq_true_eq] at admitted
  refine ⟨stored.eligible, stored.missed, alike, ⟨stored.status, ?_⟩,
    ⟨body, whole, ?_, admitted.1, admitted.2, stored.left⟩, lt_of_not_isExpired fresh,
    fun name included notTag => ?_⟩
  · rw [answer]
    rfl
  · rw [answer]
    rfl
  · rw [answer, ResponseCache.tagged, Fields.values_replace_of_ne _ _ notTag]
    exact Snapshot.values_replayFields_capture stored.named included notTag

/-- **Every hit is justified.**  In a run over a store that is empty at first, a request that is
answered with a hit is answered without its handler, and an earlier visit, made by a request that is
alike, justifies the answer: what its handler returned could be stored, was stored less than the
lifetime ago, and is replayed with its status, its body, and its values that are text. -/
theorem hit_justified {cache : ResponseCache} {deployment : Deployment} {options : Options}
    {happenings : List Happening} {earlier later : List Visit} {present : Visit}
    (empty : deployment.store? cache.backend.id = some (.fresh options))
    (lasting : cache.policy.ttl.isZero = false)
    (sound : ∀ happening ∈ happenings, happening.Sound cache.backend.id)
    (fits : ∀ visit ∈ cache.visits deployment happenings, visit.request.Fits)
    (noCollision : Set.InjOn sha256 {message | ∃ visit ∈ cache.visits deployment happenings,
      message = Fingerprint.encode cache.policy.vary visit.request})
    (split : cache.visits deployment happenings = earlier ++ present :: later)
    (hit : (present.outcome cache).1.fields.values cacheTag = [utf8 "HIT"]) :
    (∀ other : Handler,
      present.before.run (cache.wrap other present.request) = present.outcome cache) ∧
    ∃ visit ∈ earlier, visit.Justifies cache present := by
  have none : Backed cache [] (.fresh options) := fun _ _ found => nomatch found
  obtain ⟨store, here, backed⟩ := backed_of_split lasting sound empty none split
  obtain ⟨eligible, response, found⟩ := found_of_hit hit
  have outcome := outcome_of_found eligible found
  constructor
  · -- The lookup does not depend on the handler.
    intro other
    have same : (Visit.found cache ⟨present.before, other, present.request⟩).1 = some response :=
      found
    rw [outcome]
    exact @outcome_of_found cache ⟨present.before, other, present.request⟩ eligible _ same
  · obtain ⟨-, wall, replayed⟩ := ResponseCache.run_lookup here (present.key cache)
    obtain ⟨entry, there, fresh, restored⟩ := replayed response found
    obtain ⟨visit, mem, key, stored⟩ := backed _ entry there
    have memVisit : visit ∈ cache.visits deployment happenings :=
      split ▸ List.mem_append_left _ mem
    have memPresent : present ∈ cache.visits deployment happenings :=
      split ▸ List.mem_append_right _ List.mem_cons_self
    have messages := Fingerprint.encode_eq_of_key_eq noCollision ⟨visit, memVisit, rfl⟩
      ⟨present, memPresent, rfl⟩ (store.options.fullKey_inj.mp key).symm
    have alike :=
      (Fingerprint.encode_eq_iff (fits visit memVisit) (fits present memPresent)).mp messages
    have clock : (present.outcome cache).2.wall = present.before.wall := by
      rw [outcome]
      exact wall
    exact ⟨visit, mem, stored.justifies alike restored (by rw [outcome]) (clock ▸ fresh)⟩

/-! ### A run with a hit -/

def sampleCache : ResponseCache := ⟨⟨0, .inProcess, .standard⟩, .standard⟩

def sampleStart : Deployment := ((Deployment.start 1000).addLocal .standard (.ofSecs 60)).2

/-- A handler that returns a page with this text, with a field that must not be stored and a value
that is not text. -/
def samplePage (text : String) : Handler := fun _ =>
  return ⟨200, [(contentType, utf8 "text/plain"), (utf8 "set-cookie", utf8 "id=1"),
    (utf8 "age", [0xFF])], .whole (utf8 text)⟩

def sampleRequest (user : String) : Request :=
  ⟨utf8 "GET", ⟨utf8 "/me", none⟩, [], some (utf8 user), []⟩

/-- Two users ask for the same page, and one of them asks again. -/
def sampleRun : List Happening :=
  [.visit (samplePage "old") (sampleRequest "alice"), .advance (.ofSecs 10),
    .visit (samplePage "other") (sampleRequest "bob"), .sweep,
    .visit (samplePage "new") (sampleRequest "alice")]

def sampleFirst : Visit := ⟨sampleStart, samplePage "old", sampleRequest "alice"⟩

def sampleOther : Visit :=
  ⟨(sampleFirst.outcome sampleCache).2.advance (.ofSecs 10), samplePage "other", sampleRequest "bob"⟩

def sampleAgain : Visit :=
  ⟨(sampleOther.outcome sampleCache).2.sweep 0, samplePage "new", sampleRequest "alice"⟩

/-- The user who asks again is answered with what was stored for that user. -/
theorem hit_justified_sampleRun :
    sampleCache.visits sampleStart sampleRun = [sampleFirst, sampleOther] ++ sampleAgain :: [] ∧
      (sampleAgain.outcome sampleCache).1.fields.values cacheTag = [utf8 "HIT"] ∧
      (sampleAgain.outcome sampleCache).1.body = .whole (utf8 "old") ∧
      ∃ visit ∈ [sampleFirst, sampleOther], visit.Justifies sampleCache sampleAgain := by
  have split : sampleCache.visits sampleStart sampleRun =
      [sampleFirst, sampleOther] ++ sampleAgain :: [] := rfl
  have hit : (sampleAgain.outcome sampleCache).1.fields.values cacheTag = [utf8 "HIT"] := by
    decide +kernel
  have requests : ∀ visit ∈ sampleCache.visits sampleStart sampleRun,
      visit.request = sampleRequest "alice" ∨ visit.request = sampleRequest "bob" := by
    rw [split]
    rintro visit mem
    rcases List.mem_cons.mp mem with rfl | mem
    · exact .inl rfl
    rcases List.mem_cons.mp mem with rfl | mem
    · exact .inr rfl
    · rw [List.mem_singleton.mp mem]
      exact .inl rfl
  have fits : ∀ visit ∈ sampleCache.visits sampleStart sampleRun, visit.request.Fits := by
    intro visit mem
    rcases requests visit mem with same | same <;> rw [same] <;> constructor <;> decide
  have noCollision : Set.InjOn sha256 {message | ∃ visit ∈ sampleCache.visits sampleStart sampleRun,
      message = Fingerprint.encode sampleCache.policy.vary visit.request} := by
    have pair : Set.InjOn sha256
        {Fingerprint.encode sampleCache.policy.vary (sampleRequest "alice"),
          Fingerprint.encode sampleCache.policy.vary (sampleRequest "bob")} :=
      Set.injOn_pair.mpr fun same => absurd same (by decide +kernel)
    refine pair.mono ?_
    rintro _ ⟨visit, mem, rfl⟩
    rcases requests visit mem with same | same
    · exact .inl (by rw [same])
    · exact .inr (by rw [same]; rfl)
  have sound : ∀ happening ∈ sampleRun, happening.Sound sampleCache.backend.id := by
    have named : ∀ text request, (samplePage text request).Always
        (Call.Spares sampleCache.backend.id) fun response => response.fields.Named := by
      intro text request
      show Fields.Named [(contentType, utf8 "text/plain"), (utf8 "set-cookie", utf8 "id=1"),
        (utf8 "age", [0xFF])]
      rw [Fields.Named]
      decide
    intro happening mem
    simp only [sampleRun, List.mem_cons, List.not_mem_nil, or_false] at mem
    rcases mem with rfl | rfl | rfl | rfl | rfl
    · exact named "old" (sampleRequest "alice")
    · trivial
    · exact named "other" (sampleRequest "bob")
    · trivial
    · exact named "new" (sampleRequest "alice")
  refine ⟨split, hit, by decide +kernel, ?_⟩
  exact (hit_justified (show sampleStart.store? 0 = some (.fresh .standard) from rfl) rfl sound fits
    noCollision split hit).2

end Visit

end TimedCache
