import TimedCache.Proofs.Deployment.Backend
import TimedCache.Proofs.Documents
import TimedCache.Proofs.ManagementApi.History
import TimedCache.Proofs.Store.Refinement

/-!
# The management interface is a faithful store

Requests to read and to change what is stored come in, one after another; between them time passes
and sweeps take place.  Whatever the requests hold, the interface behaves as **the history of the
accepted changes** says (`ManagementApi.Faithful`).

**One request** is answered by what the history says before it, and what it leaves is said by the history
behind it (`ManagementApi.Reflects`).  There is one lemma for each endpoint.  A deletion asks first
whether the key is there, and then deletes it.  In between no time passes, so that it tells what a
read would have told.

**Documents** come back as they were put: what an entry holds is the text of a regular document, and that
is decoded to the very same document.

**The last reading of the clock** is left out, and it is the only one.  The wall clock is a 64-bit word,
and expiries that lie beyond it are cut to the greatest word.  When the clock shows `2 ^ 64 - 1`, an entry
with such an expiry counts as expired, although its lifetime is not over.

## Main Definitions

* `ManagementApi.Occurrence`, `ManagementApi.reach` — what happens, and what it leads to
* `ManagementApi.Faithful` — what the interface guarantees
-/

namespace TimedCache

open Http Json

namespace ReadThrough

/-- The lifetime of a document is the one that the backend would take. -/
theorem lifetime_of (backend : Backend) (ttl : Duration) :
    backend.options.lifetime ((of backend).lifetime ttl) = backend.options.lifetime ttl := by
  unfold lifetime of Options.lifetime Duration.orDefault
  dsimp only
  split
  · rw [ite_self]
  · rfl

end ReadThrough

namespace ManagementApi

/-- The response that gives the document of a key. -/
def valueResponse (key : Bytes) (value : Json) : Response :=
  jsonResponse 200 (.object [("key", .str key), ("value", value)])

variable {api : ManagementApi} {deployment : Deployment} {history : List Record} {store : Store}
  {request : Request} {segment key : Bytes}

/-- The store behind the interface mirrors a history. -/
def Reflects (api : ManagementApi) (deployment : Deployment) (history : List Record) : Prop :=
  ∃ store, deployment.store? api.entities.backend.id = some store ∧
    Mirrors api.entities.backend.options history deployment.wall store

/-! ### Reading and deleting -/

/-- The document of an entry that a put has made is the document that was put. -/
theorem read_putEntry_of_regular {put : Nat × Json × Nat} (regular : Regular 126 put.2.1)
    (free : FloatFree put.2.1) (options : Options) :
    Codec.any.read (.ok (putEntry options put).value) = .ok put.2.1 := by
  have deep : Regular maxLevels put.2.1 := regular.mono (by decide)
  have decoded : Codec.any.decode (putEntry options put).value = .ok put.2.1 :=
    decode_value deep free
  rw [Codec.read, decoded]
  rfl

theorem read_putEntry {put : Nat × Json × Nat} (plain : Plain put.2.1 put.2.2) (options : Options) :
    Codec.any.read (.ok (putEntry options put).value) = .ok put.2.1 :=
  read_putEntry_of_regular plain.regular plain.floatFree options

/-- Serving a request with one operation of the store. -/
theorem reflects_limited (reflects : Reflects api deployment history) (op : Operation)
    (respond : op.Answer → Response) :
    ∃ store after, Mirrors api.entities.backend.options history deployment.wall store ∧
      deployment.run (do
          let context ← Program.limitedContext requestTimeout
          let answer ← Program.perform api.entities.backend.id context op
          return respond answer) = (respond (store.carryOut deployment.wall op).1, after) ∧
      ∀ {history' : List Record}, Mirrors api.entities.backend.options history' deployment.wall
          (store.carryOut deployment.wall op).2 → Reflects api after history' := by
  obtain ⟨store, here, mirrors⟩ := reflects
  have live : deployment.standing (.timeoutAt deployment.elapsed requestTimeout) = .live :=
    deployment.standing_timeoutAt (by decide)
  obtain ⟨after, run, there, wall, -⟩ := Deployment.run_perform here mirrors.isOpen live op
  exact ⟨store, after, mirrors, run fun answer => .done (respond answer),
    fun mirrors' => ⟨_, there, wall ▸ mirrors'⟩⟩

/-- The response to a read, once the store has answered. -/
def afterGet (key : Bytes) (answer : Except CacheError Bytes) : Response :=
  resultResponse (fun value => .object [("key", .str key), ("value", value)])
    (Codec.any.read answer)

theorem serve_get_eq (api : ManagementApi) (request : Request) (addresses : Addresses segment key) :
    api.serve request (.get segment) = (do
      let context ← Program.limitedContext requestTimeout
      let answer ← Program.perform api.entities.backend.id context (.get key)
      return afterGet key answer) := by
  rw [serve, readKey_eq_ok_iff.mpr addresses]
  refine congrArg (Program.ask _) (funext fun context => ?_)
  show (ReadThrough.getJson _ _ _ _).bind _ = _
  rw [ReadThrough.getJson_eq]
  rfl

/-- **A read** is answered with what is seen. -/
theorem serve_get (request : Request) (reflects : Reflects api deployment history)
    (addresses : Addresses segment key) :
    ∃ after, deployment.run (api.serve request (.get segment)) =
        ((seen? api.entities.backend.options history deployment.wall key).elim
          (failureResponse (.notFound key)) fun put => valueResponse key put.2.1, after) ∧
      Reflects api after history := by
  obtain ⟨store, after, mirrors, responded, leaves⟩ :=
    reflects_limited reflects (.get key) (afterGet key)
  rw [Store.carryOut_get] at responded leaves
  refine ⟨after, ?_, leaves (mirrors.alike (store.read_alike deployment.wall key))⟩
  rw [serve_get_eq api request addresses, responded, mirrors.live, seen?]
  cases last : lastPut? key history with
  | none => rfl
  | some put =>
      have decoded := read_putEntry (mirrors.plain_of_lastPut last) api.entities.backend.options
      simp only [Option.map_some, Option.filter_some]
      split
      next =>
        simp only [Option.map_some, Option.elim_some, afterGet, decoded]
        rfl
      next => rfl

/-- What a deletion does once it is known whether the key is there. -/
def afterHas (api : ManagementApi) (context : Context) (key : Bytes) :
    Except CacheError Bool → Program Response
  | .error failure => .done (failureResponse failure)
  | .ok existed => do
    let result ← api.entities.deleteValue context key
    return resultResponse (fun _ => deleteDocument key existed) result

theorem serveDelete_eq (api : ManagementApi) (key : Bytes) :
    api.serveDelete key = (do
      let context ← Program.limitedContext requestTimeout
      let existed ← Program.perform api.entities.backend.id context (.has key)
      api.afterHas context key existed) := by
  refine congrArg (Program.ask _) (funext fun context => congrArg (Program.ask _) ?_)
  funext existed
  cases existed <;> rfl

/-- **A deletion** tells whether a read would have seen something. -/
theorem serve_delete (request : Request) (reflects : Reflects api deployment history)
    (addresses : Addresses segment key) :
    ∃ after, deployment.run (api.serve request (.delete segment)) =
        (jsonResponse 200 (deleteDocument key
          (seen? api.entities.backend.options history deployment.wall key).isSome), after) ∧
      Reflects api after (history ++ [⟨deployment.wall, .delete key⟩]) := by
  obtain ⟨store, here, mirrors⟩ := reflects
  let context := Context.timeoutAt deployment.elapsed requestTimeout
  have live : deployment.standing context = .live := deployment.standing_timeoutAt (by decide)
  -- The deletion runs under the context of the question, which cannot have ended in between.
  obtain ⟨asked, ask, here', wall', standing⟩ :=
    Deployment.run_perform here mirrors.isOpen live (.has key)
  have mirrors' := mirrors.alike
    (store.readLive_alike deployment.wall (store.options.fullKey key))
  obtain ⟨after, remove, there, wall, -⟩ :=
    Deployment.run_perform here' mirrors'.isOpen ((congrFun standing context).trans live)
      (.delete key)
  have existed : (store.readLive deployment.wall (store.options.fullKey key)).1.isSome =
      (seen? api.entities.backend.options history deployment.wall key).isSome := by
    rw [Store.readLive_fst, ← Store.live?_eq, mirrors.live, seen?, Option.filter_map]
    simp only [Option.isSome_map, Function.comp_def]
  refine ⟨after, ?_, _, there, ?_⟩
  · rw [serve, readKey_eq_ok_iff.mpr addresses, ← existed]
    show deployment.run (api.serveDelete key) = _
    rw [serveDelete_eq]
    refine (ask (api.afterHas context key)).trans ?_
    exact remove fun result => .done (resultResponse (fun _ => deleteDocument key _) result)
  · rw [wall, wall']
    obtain ⟨options, isOpen⟩ := Store.remove_kept _ key
    refine mirrors'.remove (.delete key) _ options isOpen rfl fun other => ?_
    simp only [Change.touches, decide_eq_true_eq, eq_comm (a := key)]
    exact Store.live?_remove _ deployment.wall key other

/-! ### Putting, and removing many -/

theorem serve_set (reflects : Reflects api deployment history) {body : SetRequest}
    (fine : body.objection? = none) :
    ∃ after, deployment.run (api.serveSet body) =
        (jsonResponse 200 (setDocument body.key), after) ∧
      (Plain body.value (body.ttl.getD 0) → Reflects api after
        (history ++ [⟨deployment.wall, .put body.key body.value (body.ttl.getD 0)⟩])) := by
  let ttl := Duration.ofSecs (body.ttl.getD 0)
  obtain ⟨store, after, mirrors, responded, leaves⟩ := reflects_limited reflects
    (.set body.key body.value.text (api.entities.documents.lifetime ttl)) fun answer =>
      resultResponse (fun _ => setDocument body.key) answer
  rw [serveSet, fine]
  exact ⟨after, responded, fun plain =>
    leaves (mirrors.put plain (ReadThrough.lifetime_of api.entities.backend ttl))⟩

theorem serve_flush (reflects : Reflects api deployment history) :
    ∃ response after, deployment.run (api.serve request .flush) = (response, after) ∧
      response.status = 200 ∧ Reflects api after (history ++ [⟨deployment.wall, .flush⟩]) := by
  obtain ⟨store, after, mirrors, responded, leaves⟩ := reflects_limited reflects .flush fun answer =>
    resultResponse (fun _ => .object [("message", .ofText "Cache flushed successfully")]) answer
  refine ⟨_, after, responded, rfl, leaves ?_⟩
  exact mirrors.remove .flush (store.removeAll fun _ => true).2 rfl rfl rfl
    (store.live?_removeAll (fun _ => true) deployment.wall)

theorem serve_invalidate (reflects : Reflects api deployment history) {body : InvalidateRequest}
    (fine : body.objection? = none) :
    ∃ response after, deployment.run (api.serveInvalidate body) = (response, after) ∧
      response.status = 200 ∧
      Reflects api after (history ++ [⟨deployment.wall, .invalidate body.pattern⟩]) := by
  obtain ⟨store, after, mirrors, responded, leaves⟩ :=
    reflects_limited reflects (.invalidate body.pattern) fun answer =>
      resultResponse
        (fun removed => .object [("pattern", .str body.pattern), ("removed", .nat removed)]) answer
  rw [serveInvalidate, fine]
  refine ⟨_, after, responded, rfl, leaves ?_⟩
  exact mirrors.remove (.invalidate body.pattern) (store.removeAll (Glob.accepts body.pattern)).2
    rfl rfl rfl (store.live?_removeAll (Glob.accepts body.pattern) deployment.wall)

/-- **An accepted change** is made. -/
theorem serve_change (reflects : Reflects api deployment history) {endpoint : Endpoint}
    {change : Change} (accepted : change? request endpoint = some change) :
    ∃ response after, deployment.run (api.serve request endpoint) = (response, after) ∧
      response.status = 200 ∧
      ((∀ key value seconds, change = .put key value seconds → Plain value seconds) →
        Reflects api after (history ++ [⟨deployment.wall, change⟩])) := by
  cases endpoint with
  | set =>
      obtain ⟨body, read, fine, rfl⟩ := eq_some_of_accepted accepted
      obtain ⟨after, responded, leaves⟩ := serve_set reflects fine
      rw [serve, read]
      exact ⟨_, after, responded, rfl, fun plain => leaves (plain _ _ _ rfl)⟩
  | invalidate =>
      obtain ⟨body, read, fine, rfl⟩ := eq_some_of_accepted accepted
      obtain ⟨response, after, responded, status, reflects'⟩ := serve_invalidate reflects fine
      rw [serve, read]
      exact ⟨response, after, responded, status, fun _ => reflects'⟩
  | flush =>
      cases accepted
      obtain ⟨response, after, responded, status, reflects'⟩ := serve_flush reflects
      exact ⟨response, after, responded, status, fun _ => reflects'⟩
  | delete segment =>
      obtain ⟨key, found, rfl⟩ := Option.map_eq_some_iff.mp accepted
      obtain ⟨after, responded, reflects'⟩ := serve_delete request reflects
        (readKey_eq_ok_iff.mp (eq_ok_of_toOption found))
      exact ⟨_, after, responded, rfl, fun _ => reflects'⟩
  | stats | get segment | health | cacheHealth => cases accepted

/-! ### Whatever happens -/

/-- What may happen to the interface and around it. -/
inductive Occurrence where
  /-- A request is answered. -/
  | request (request : Request) (endpoint : Endpoint)
  /-- Time passes. -/
  | advance (duration : Duration)
  /-- The expired entries are reclaimed. -/
  | sweep

/-- A request is about keys, and what it puts holds no floating-point numbers and is put for less than
`2 ^ 50` seconds. -/
def Occurrence.IsPlain : Occurrence → Prop
  | .request request endpoint =>
    endpoint.isKeyed = true ∧ ∀ key value seconds,
      change? request endpoint = some (.put key value seconds) → FloatFree value ∧ seconds < 2 ^ 50
  | _ => True

/-- A deployment, and the changes that were accepted so far. -/
structure Served where
  deployment : Deployment
  history : List Record

/-- How a request would be answered. -/
def respond (api : ManagementApi) (served : Served) (request : Request) (endpoint : Endpoint) :
    Response :=
  (served.deployment.run (api.serve request endpoint)).1

/-- What a request would leave. -/
def leave (api : ManagementApi) (served : Served) (request : Request) (endpoint : Endpoint) :
    Deployment :=
  (served.deployment.run (api.serve request endpoint)).2

/-- What is the case after an occurrence. -/
def happen (api : ManagementApi) (served : Served) : Occurrence → Served
  | .request request endpoint =>
    ⟨api.leave served request endpoint,
      served.history ++ ((change? request endpoint).map (Record.mk served.deployment.wall)).toList⟩
  | .advance duration => { served with deployment := served.deployment.advance duration }
  | .sweep => { served with deployment := served.deployment.sweep api.entities.backend.id }

/-- What several occurrences lead to. -/
def reach (api : ManagementApi) (served : Served) (occurrences : List Occurrence) : Served :=
  occurrences.foldl api.happen served

/-- **What the interface guarantees**, in the light of the accepted changes. -/
structure Faithful (api : ManagementApi) (served : Served) : Prop where
  /-- A read gives a document exactly if it holds under the key. -/
  get : ∀ request {segment key value}, Addresses segment key → Regular 126 value →
    FloatFree value →
      (api.respond served request (.get segment) = valueResponse key value ↔
        Holds api.entities.backend.options.defaultLifetime served.history key value
          served.deployment.wall)
  /-- If it gives none, it tells that the key was not found, which has the status 404. -/
  missing : ∀ request {segment key}, Addresses segment key →
    api.respond served request (.get segment) = failureResponse (.notFound key) ∨
      ∃ value, Regular 126 value ∧ FloatFree value ∧
        api.respond served request (.get segment) = valueResponse key value
  /-- A deletion tells whether a read would have given a document. -/
  delete : ∀ request {segment key}, Addresses segment key →
    ∃ existed, api.respond served request (.delete segment) =
        jsonResponse 200 (deleteDocument key existed) ∧
      (existed = true ↔ (api.respond served request (.get segment)).status = 200)
  /-- The accepted changes are those that are answered with success. -/
  accepted : ∀ request {endpoint}, endpoint.isKeyed = true → (∀ segment, endpoint ≠ .get segment) →
    ((change? request endpoint).isSome = true ↔ (api.respond served request endpoint).status = 200)
  /-- A request that is rejected changes nothing. -/
  rejected : ∀ request {endpoint}, endpoint.isKeyed = true →
    (api.respond served request endpoint).status = 400 →
      api.leave served request endpoint = served.deployment

/-! ### What a read tells -/

/-- The document of a response is regular. -/
theorem regular_valueDocument {value : Json} (text : key.isText = true) (regular : Regular 126 value) :
    Regular 127 (.object [("key", .str key), ("value", value)]) := by
  have before : Bytes.before (utf8 "key") (utf8 "value") = true := by decide
  have names : (utf8 "key").isText = true ∧ (utf8 "value").isText = true := by decide
  show Regular 127 (.obj [(utf8 "key", .str key), (utf8 "value", value)])
  exact .obj (List.pairwise_pair.mpr before)
    (List.forall_mem_cons.mpr ⟨names.1, List.forall_mem_singleton.mpr names.2⟩)
    (List.forall_mem_cons.mpr ⟨.str text, List.forall_mem_singleton.mpr regular⟩)

theorem floatFree_valueDocument {value : Json} (free : FloatFree value) :
    FloatFree (.object [("key", .str key), ("value", value)]) :=
  .obj (List.forall_mem_cons.mpr ⟨.str key, List.forall_mem_singleton.mpr free⟩)

/-- Different documents are told in different responses. -/
theorem valueResponse_inj {value other : Json} (text : key.isText = true) (regular : Regular 126 value)
    (free : FloatFree value) (regular' : Regular 126 other) (free' : FloatFree other)
    (same : valueResponse key value = valueResponse key other) : value = other := by
  have written := congrArg Response.body same
  have equal := text_inj (regular_valueDocument text regular) (floatFree_valueDocument free)
    (regular_valueDocument text regular') (floatFree_valueDocument free') (Body.whole.inj written)
  cases equal
  rfl

/-! ### Runs -/

variable {served : Served}

/-- A request to read a key or to change something, or one that is refused at once. -/
theorem endpoint_cases (api : ManagementApi) (request : Request) {endpoint : Endpoint}
    (keyed : endpoint.isKeyed = true) :
    (∃ change, change? request endpoint = some change) ∨
      (∃ segment key, endpoint = .get segment ∧ Addresses segment key) ∨
      change? request endpoint = none ∧
        ∃ refusal, api.serve request endpoint = .done refusal ∧ refusal.status ≠ 200 := by
  cases accepted : change? request endpoint with
  | some change => exact .inl ⟨change, rfl⟩
  | none =>
      by_cases reads : ∃ segment key, endpoint = .get segment ∧ Addresses segment key
      · exact .inr (.inl reads)
      · exact .inr (.inr ⟨rfl, exists_refusal api keyed accepted fun segment key eq addresses =>
          reads ⟨segment, key, eq, addresses⟩⟩)

/-- **What happens** is what the history tells. -/
theorem reflects_happen (reflects : Reflects api served.deployment served.history)
    {occurrence : Occurrence} (plain : occurrence.IsPlain) :
    Reflects api (api.happen served occurrence).deployment
      (api.happen served occurrence).history := by
  cases occurrence with
  | request request endpoint =>
      obtain ⟨keyed, puts⟩ := plain
      obtain ⟨change, accepted⟩ | ⟨segment, key, rfl, addresses⟩ | ⟨refused, refusal, served', -⟩ :=
        endpoint_cases api request keyed
      · -- What is put is regular because it has been read, whatever the request holds.
        obtain ⟨response, after, responded, -, leaves⟩ := serve_change reflects accepted
        rw [happen, leave, responded, accepted]
        refine leaves fun key value seconds eq => ?_
        subst eq
        obtain ⟨free, short⟩ := puts key value seconds accepted
        exact ⟨regular_of_put accepted, free, short⟩
      · obtain ⟨after, responded, reflects'⟩ := serve_get request reflects addresses
        rw [happen, leave, responded]
        show Reflects api after (served.history ++ [])
        rwa [List.append_nil]
      · rw [happen, leave, served', refused]
        show Reflects api served.deployment (served.history ++ [])
        rwa [List.append_nil]
  | advance duration =>
      obtain ⟨store, here, mirrors⟩ := reflects
      obtain ⟨after, there, alike⟩ := Deployment.alike_advanceTo here
        (served.deployment.elapsed + duration.nanos)
      exact ⟨after, there, (mirrors.later (served.deployment.wall_le_advanceTo _)).alike alike⟩
  | sweep =>
      obtain ⟨store, here, mirrors⟩ := reflects
      exact ⟨_, Deployment.store?_sweep here, mirrors.alike (store.sweep_alike _)⟩

theorem reflects_reach (reflects : Reflects api served.deployment served.history)
    {occurrences : List Occurrence} (plain : ∀ occurrence ∈ occurrences, occurrence.IsPlain) :
    Reflects api (api.reach served occurrences).deployment (api.reach served occurrences).history := by
  induction occurrences generalizing served with
  | nil => exact reflects
  | cons occurrence occurrences ih =>
      obtain ⟨first, others⟩ := List.forall_mem_cons.mp plain
      exact ih (reflects_happen reflects first) others

/-- A read tells that there is nothing under the key, or it gives what is seen. -/
theorem respond_get (request : Request)
    (reflects : Reflects api served.deployment served.history) (addresses : Addresses segment key) :
    seen? api.entities.backend.options served.history served.deployment.wall key = none ∧
        api.respond served request (.get segment) = failureResponse (.notFound key) ∨
      ∃ wall value seconds,
        seen? api.entities.backend.options served.history served.deployment.wall key =
            some (wall, value, seconds) ∧
          Plain value seconds ∧
            api.respond served request (.get segment) = valueResponse key value := by
  obtain ⟨after, responded, -⟩ := serve_get request reflects addresses
  obtain ⟨store, -, mirrors⟩ := reflects
  rw [respond, responded]
  cases seen : seen? api.entities.backend.options served.history served.deployment.wall key with
  | none => exact .inl ⟨rfl, rfl⟩
  | some put =>
      have last := (Option.filter_eq_some_iff.mp seen).1
      exact .inr ⟨_, _, _, rfl, mirrors.plain_of_lastPut last, rfl⟩

/-- A read gives what holds. -/
theorem respond_get_eq_iff (request : Request)
    (reflects : Reflects api served.deployment served.history)
    (moderate : api.entities.backend.options.defaultLifetime.nanos < (Duration.ofSecs (2 ^ 50)).nanos)
    (early : served.deployment.wall < word64 - 1) (addresses : Addresses segment key) {value : Json}
    (regular : Regular 126 value) (free : FloatFree value) :
    api.respond served request (.get segment) = valueResponse key value ↔
      Holds api.entities.backend.options.defaultLifetime served.history key value
        served.deployment.wall := by
  obtain ⟨store, here, mirrors⟩ := reflects
  rw [← exists_seen_iff_holds mirrors moderate early]
  obtain ⟨unseen, responded⟩ | ⟨wall, found, seconds, seen, plain, responded⟩ :=
    respond_get request ⟨store, here, mirrors⟩ addresses
  · rw [responded, unseen]
    refine iff_of_false (fun same => ?_) (by rintro ⟨wall, seconds, ⟨⟩⟩)
    cases congrArg Response.status same
  · rw [responded, seen]
    constructor
    · intro same
      obtain rfl := valueResponse_inj addresses.text plain.regular plain.floatFree regular free same
      exact ⟨wall, seconds, rfl⟩
    · rintro ⟨wall, seconds, ⟨⟩⟩
      rfl

/-- Reads and accepted changes are not rejected, and all else is rejected at once. -/
theorem leave_of_rejected (reflects : Reflects api served.deployment served.history)
    {endpoint : Endpoint} (keyed : endpoint.isKeyed = true)
    (rejected : (api.respond served request endpoint).status = 400) :
    api.leave served request endpoint = served.deployment := by
  obtain ⟨change, accepted⟩ | ⟨segment, key, rfl, addresses⟩ | ⟨-, refusal, refused, -⟩ :=
    endpoint_cases api request keyed
  · obtain ⟨response, after, responded, status, -⟩ := serve_change reflects accepted
    rw [respond, responded, status] at rejected
    cases rejected
  · obtain ⟨-, responded⟩ | ⟨wall, value, seconds, -, -, responded⟩ :=
      respond_get request reflects addresses
    all_goals
      rw [responded] at rejected
      cases rejected
  · rw [leave, refused]
    rfl

/-- What a deployment guarantees that reflects the history. -/
theorem faithful_of_reflects (reflects : Reflects api served.deployment served.history)
    (moderate : api.entities.backend.options.defaultLifetime.nanos < (Duration.ofSecs (2 ^ 50)).nanos)
    (early : served.deployment.wall < word64 - 1) : Faithful api served where
  get := fun request _ _ _ addresses =>
    respond_get_eq_iff request reflects moderate early addresses
  missing := by
    intro request segment key addresses
    obtain ⟨-, responded⟩ | ⟨wall, value, seconds, -, plain, responded⟩ :=
      respond_get request reflects addresses
    · exact .inl responded
    · exact .inr ⟨value, plain.regular, plain.floatFree, responded⟩
  delete := by
    intro request segment key addresses
    obtain ⟨after, deleted, -⟩ := serve_delete request reflects addresses
    refine ⟨_, congrArg Prod.fst deleted, ?_⟩
    obtain ⟨unseen, responded⟩ | ⟨wall, value, seconds, seen, -, responded⟩ :=
      respond_get request reflects addresses
    · rw [responded, unseen]
      exact iff_of_false Bool.false_ne_true (by decide : (404 : Nat) ≠ 200)
    · rw [responded, seen]
      exact iff_of_true rfl rfl
  accepted := by
    intro request endpoint keyed noRead
    obtain ⟨change, accepted⟩ | ⟨segment, key, rfl, -⟩ | ⟨unaccepted, refusal, refused, status⟩ :=
      endpoint_cases api request keyed
    · obtain ⟨response, after, responded, status, -⟩ := serve_change reflects accepted
      rw [respond, responded, accepted]
      exact iff_of_true rfl status
    · exact absurd rfl (noRead segment)
    · rw [respond, refused, unaccepted]
      exact iff_of_false Bool.false_ne_true status
  rejected := fun _ _ => leave_of_rejected reflects

/-- **The management interface is faithful**, whatever has happened since its backend was made, at every
reading of the 64-bit wall clock but the last one (`early`). -/
theorem reach_faithful (api : ManagementApi) (deployment : Deployment)
    (here : deployment.store? api.entities.backend.id =
      some (.fresh api.entities.backend.options))
    (moderate : api.entities.backend.options.defaultLifetime.nanos <
      (Duration.ofSecs (2 ^ 50)).nanos)
    (occurrences : List Occurrence) (plain : ∀ occurrence ∈ occurrences, occurrence.IsPlain)
    (early : (api.reach ⟨deployment, []⟩ occurrences).deployment.wall < word64 - 1) :
    api.Faithful (api.reach ⟨deployment, []⟩ occurrences) := by
  have start : Reflects api deployment [] :=
    ⟨_, here, mirrors_fresh api.entities.backend.options deployment.wall⟩
  exact faithful_of_reflects (reflects_reach start plain) moderate early

/-- A deployment with one backend in the process. -/
def sample : Backend × Deployment :=
  (Deployment.start 1700000000000).addLocal .standard Sweeper.standardInterval

/-- A request to put a list under `a`, for two seconds. -/
def samplePut : Request where
  method := utf8 "POST"
  target := ⟨utf8 "/cache/set", none⟩
  fields := [(utf8 "content-type", utf8 "application/json")]
  user := none
  body := (putDocument (utf8 "a") (.arr [.int 1]) 2).text

/-- After one second and a sweep, the list is still there. -/
theorem reach_faithful_samplePut :
    (of sample.1 0).respond
        ((of sample.1 0).reach ⟨sample.2, []⟩
          [.request samplePut .set, .advance (.ofSecs 1), .sweep])
        { samplePut with method := utf8 "GET" } (.get (utf8 "a")) =
      valueResponse (utf8 "a") (.arr [.int 1]) := by
  have one : ∀ levels, Regular levels (.int 1) := fun _ => .int (by decide) (by decide)
  have regular : Regular 126 (.arr [.int 1]) := .arr (List.forall_mem_singleton.mpr (one 125))
  have free : FloatFree (.arr [.int 1]) := .arr (List.forall_mem_singleton.mpr (.int 1))
  have read : readBody SetRequest.reader samplePut = .ok ⟨utf8 "a", .arr [.int 1], some 2⟩ :=
    readBody_putDocument rfl (by with_unfolding_all decide) (by with_unfolding_all decide)
      (by decide) regular free (by decide)
  have accepted : change? samplePut .set = some (.put (utf8 "a") (.arr [.int 1]) 2) :=
    change?_set read (by decide) (by decide)
  have served : (of sample.1 0).serve samplePut .set =
      (of sample.1 0).serveSet ⟨utf8 "a", .arr [.int 1], some 2⟩ := by
    rw [serve, read]
    rfl
  have reached : ((of sample.1 0).reach ⟨sample.2, []⟩
      [.request samplePut .set, .advance (.ofSecs 1), .sweep]).deployment.wall = 1700000001000 := by
    simp only [reach, List.foldl, happen, leave, served]
    with_unfolding_all rfl
  have told : ((of sample.1 0).reach ⟨sample.2, []⟩
      [.request samplePut .set, .advance (.ofSecs 1), .sweep]).history =
        [⟨1700000000000, .put (utf8 "a") (.arr [.int 1]) 2⟩] := by
    simp only [reach, List.foldl, happen, accepted]
    rfl
  have plain : ∀ occurrence ∈ [Occurrence.request samplePut .set, .advance (.ofSecs 1), .sweep],
      occurrence.IsPlain := by
    refine List.forall_mem_cons.mpr ⟨⟨rfl, fun key value seconds same => ?_⟩,
      List.forall_mem_cons.mpr ⟨trivial, List.forall_mem_singleton.mpr trivial⟩⟩
    cases accepted.symm.trans same
    exact ⟨free, by decide⟩
  have addresses : Addresses (utf8 "a") (utf8 "a") := ⟨by decide, by decide, by decide, by decide⟩
  refine ((reach_faithful (of sample.1 0) sample.2 (by with_unfolding_all rfl) (by decide) _ plain
    (by rw [reached]; decide)).get _ addresses regular free).mpr ?_
  rw [told, reached]
  exact ⟨[], [], 1700000000000, 2, rfl, List.forall_mem_nil _, .inr (by decide)⟩

end ManagementApi

end TimedCache
