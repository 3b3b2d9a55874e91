import TimedCache.Proofs.Deployment.Interlude
import TimedCache.Proofs.ManagementApi.Faithful
import TimedCache.Proofs.Text.Percent

/-!
# Which keys can be reached

A document is put under the key that stands in the body of a request; it is read and deleted under the
key that stands in the path.  So two parts of the interface must agree: which keys may be put, and which
paths lead to the endpoints of a key.

**Every key that may be put can be reached**, in the coded form in which only unreserved characters stay
as they are (`ManagementApi.reachable`).  Excepted are the four names under which the interface itself has
paths below `/cache/` (`Route.fixedNames`): fixed paths come before the path of a key.  Such a key may be
put, but its path leads elsewhere (`ManagementApi.fixedName_unreachable`).

## Main Definitions

* `keyPath` — the path of a key
* `ManagementApi.Accepts` — a request that puts a document
* `ManagementApi.opened` — a response as it leaves the interface
-/

namespace TimedCache

open Http Json

/-! ### Paths -/

/-- The path of a key. -/
def keyPath (key : Bytes) : Bytes := utf8 "/cache/" ++ percentEncode key

/-- The names that have a path of their own where keys have theirs. -/
def Route.fixedNames : List Bytes := [utf8 "stats", utf8 "flush", utf8 "invalidate", utf8 "set"]

/-- A path that begins with a slash, without a query and without a fragment, is read as it stands. -/
theorem Http.Target.read_cons {rest : Bytes} (query : 0x3F ∉ rest) (fragment : 0x23 ∉ rest) :
    Target.read (0x2F :: rest) = ⟨0x2F :: rest, none⟩ := by
  have noFragment : ∀ b ∈ (0x2F :: rest : Bytes), decide (b ≠ 0x23) = true :=
    List.forall_mem_cons.mpr ⟨rfl, fun b mem => decide_eq_true fun same => fragment (same ▸ mem)⟩
  have noQuery : ∀ b ∈ (0x2F :: rest : Bytes), decide (b ≠ 0x3F) = true :=
    List.forall_mem_cons.mpr ⟨rfl, fun b mem => decide_eq_true fun same => query (same ▸ mem)⟩
  -- A scheme cannot begin with a slash.
  have origin : dropOrigin (0x2F :: rest) = 0x2F :: rest := rfl
  unfold Target.read
  rw [List.takeWhile_eq_self_iff.mpr noFragment, origin]
  dsimp only
  rw [List.takeWhile_eq_self_iff.mpr noQuery, List.dropWhile_eq_nil_iff.mpr noQuery]
  rfl

/-- The path of a key is the path of a target. -/
theorem read_keyPath (key : Bytes) : Target.read (keyPath key) = ⟨keyPath key, none⟩ := by
  have query := not_mem_percentEncode (c := 0x3F) (by decide) (by decide) key
  have fragment := not_mem_percentEncode (c := 0x23) (by decide) (by decide) key
  refine @Target.read_cons (utf8 "cache/" ++ percentEncode key) ?_ ?_
  · exact List.not_mem_append (by decide) query
  · exact List.not_mem_append (by decide) fragment

/-- **The path of a key leads to the key**, unless its name has a path of its own. -/
theorem Route.ofPath?_keyPath {key : Bytes} (nonempty : key ≠ []) (free : key ∉ fixedNames) :
    ofPath? (keyPath key) = some (.key (percentEncode key)) := by
  have other : ∀ {path : Bytes}, path.take 2 ≠ utf8 "/c" → keyPath key ≠ path := by
    rintro path ne rfl
    exact ne rfl
  have health : keyPath key ≠ utf8 "/health" := other (by decide)
  have cacheHealth : keyPath key ≠ utf8 "/health/cache" := other (by decide)
  -- The fixed names are coded as themselves, and no two keys are coded alike.
  have plain : ∀ name ∈ fixedNames, percentDecode name = name := by decide
  have ne : ∀ name ∈ fixedNames, percentEncode key ≠ name := by
    rintro name mem same
    have decoded := percentDecode_percentEncode key
    rw [same, plain name mem] at decoded
    exact free (decoded ▸ mem)
  have segment : ((percentEncode key).isEmpty || (percentEncode key).contains 0x2F) = false := by
    have slash := not_mem_percentEncode (c := 0x2F) (by decide) (by decide) key
    simp [percentEncode_ne_nil nonempty, slash]
  rw [ofPath?, if_neg health, if_neg cacheHealth, keyPath, Bytes.strip?_append, Option.bind_some,
    ofSegment?, if_neg (ne (utf8 "stats") (by decide)), if_neg (ne (utf8 "flush") (by decide)),
    if_neg (ne (utf8 "invalidate") (by decide)), if_neg (ne (utf8 "set") (by decide)), segment]
  rfl

namespace ManagementApi

variable {api : ManagementApi} {deployment : Deployment} {request : Request} {store : Store}
  {segment key : Bytes} {shown : Option Entry}

/-! ### Any request -/

/-- A response as it leaves the interface, which is open to pages of any origin. -/
def opened (response : Response) : Response :=
  { response with fields := anyOrigin :: response.fields }

/-- A request that has a route and a method of the route is served by its endpoint. -/
theorem run_handle (api : ManagementApi) (deployment : Deployment) {route : Route}
    {endpoint : Endpoint} (found : Route.ofPath? request.target.path = some route)
    (serves : route.endpoint? request.method = some endpoint)
    (head : request.method ≠ utf8 "HEAD") (options : request.method ≠ utf8 "OPTIONS") :
    deployment.run (api.handle request) =
      (opened (deployment.run (api.serve request endpoint)).1,
        (deployment.run (api.serve request endpoint)).2) := by
  have dispatched : api.dispatch request = (api.serve request endpoint).bind fun response =>
      .done response := by
    rw [dispatch, found]
    dsimp only
    rw [serves]
    refine congrArg (Program.bind _) (funext fun response => ?_)
    exact if_neg head
  rw [handle, if_neg options, dispatched, Program.bind_pure]
  exact deployment.run_bind (api.serve request endpoint) fun response => .done (opened response)

/-! ### Endpoints on what is shown -/

/-- A read gives what is shown, and leaves it. -/
theorem run_get (shows : deployment.Shows api.entities.backend key shown) (request : Request)
    (addresses : Addresses segment key) :
    (deployment.run (api.serve request (.get segment))).1 = afterGet key
        (((shown.filter fun entry => !entry.isExpired deployment.wall).map Entry.value).elim
          (.error (.notFound key)) .ok) ∧
      (deployment.run (api.serve request (.get segment))).2.Shows api.entities.backend key shown := by
  have live : deployment.standing (.timeoutAt deployment.elapsed requestTimeout) = .live :=
    deployment.standing_timeoutAt (by decide)
  rw [serve_get_eq api request addresses]
  exact ⟨congrArg (afterGet key) (shows.perform_get live), shows.perform _ fun _ => rfl⟩

/-- A deletion tells whether something is shown, and leaves nothing. -/
theorem run_delete (shows : deployment.Shows api.entities.backend key shown) (request : Request)
    (addresses : Addresses segment key) :
    (deployment.run (api.serve request (.delete segment))).1 = jsonResponse 200 (deleteDocument key
        (shown.filter fun entry => !entry.isExpired deployment.wall).isSome) ∧
      (deployment.run (api.serve request (.delete segment))).2.Shows api.entities.backend key none := by
  let context := Context.timeoutAt deployment.elapsed requestTimeout
  let asked := deployment.perform api.entities.backend.id context (.has key)
  have live : deployment.standing context = .live := deployment.standing_timeoutAt (by decide)
  have existed : asked.1 = .ok _ := shows.perform_has live
  have live' : asked.2.standing context = .live :=
    (congrFun (deployment.standing_perform _ context _) context).trans live
  obtain ⟨store, serves, -⟩ : asked.2.Shows api.entities.backend key shown :=
    shows.perform context fun _ => rfl
  obtain ⟨removed, leaves⟩ := serves.perform_delete live' key
  have run : deployment.run (api.serve request (.delete segment)) =
      asked.2.run (api.afterHas context key asked.1) := by
    rw [serve, readKey_eq_ok_iff.mpr addresses]
    show deployment.run (api.serveDelete key) = _
    rw [serveDelete_eq]
    rfl
  rw [run, existed]
  refine ⟨?_, leaves⟩
  exact congrArg (resultResponse fun _ => deleteDocument key _) removed

/-- A put is accepted, and what it puts is shown. -/
theorem run_set (serves : deployment.Serves api.entities.backend store) {body : SetRequest}
    (fine : body.objection? = none) :
    (deployment.run (api.serveSet body)).1 = jsonResponse 200 (setDocument body.key) ∧
      (deployment.run (api.serveSet body)).2.Shows api.entities.backend body.key
        (some (putEntry api.entities.backend.options
          (deployment.wall, body.value, body.ttl.getD 0))) := by
  have live : deployment.standing (.timeoutAt deployment.elapsed requestTimeout) = .live :=
    deployment.standing_timeoutAt (by decide)
  obtain ⟨written, shows⟩ := serves.perform_set live body.key body.value.text
    (api.entities.documents.lifetime (.ofSecs (body.ttl.getD 0)))
  rw [EntityCache.documents, ReadThrough.lifetime_of] at shows
  rw [serveSet, fine]
  exact ⟨congrArg (resultResponse fun _ => setDocument body.key) written, shows⟩

/-! ### Keys in bodies and keys in paths -/

/-- A request to put a document that is accepted. -/
structure Accepts (request : Request) (body : SetRequest) : Prop where
  method : request.method = utf8 "POST"
  path : request.target.path = utf8 "/cache/set"
  read : readBody SetRequest.reader request = .ok body
  fine : keyObjection? body.key = none

/-- A request to do something with the path of a key. -/
structure Concerns (key method : Bytes) (request : Request) : Prop where
  method : request.method = method
  target : request.target = Target.read (keyPath key)

variable {body : SetRequest}

/-- The path of a key stands for the key. -/
theorem addresses_of_accepts {put : Request} (accepts : Accepts put body) :
    Addresses (percentEncode body.key) body.key := by
  obtain ⟨nonempty, short⟩ := keyObjection?_eq_none_iff.mp accepts.fine
  exact ⟨percentDecode_percentEncode body.key, (wellFormed_of_setRequest accepts.read).1, nonempty,
    short⟩

theorem run_accepts {put : Request} (accepts : Accepts put body)
    (serves : deployment.Serves api.entities.backend store) :
    (deployment.run (api.handle put)).1 = opened (jsonResponse 200 (setDocument body.key)) ∧
      (deployment.run (api.handle put)).2.Shows api.entities.backend body.key
        (some (putEntry api.entities.backend.options
          (deployment.wall, body.value, body.ttl.getD 0))) := by
  have found : Route.ofPath? put.target.path = some .set := by
    rw [accepts.path]
    decide
  have has : Route.endpoint? put.method .set = some .set := by
    rw [accepts.method]
    decide
  obtain ⟨written, shows⟩ := run_set serves accepts.fine
  rw [run_handle api deployment found has (by rw [accepts.method]; decide)
    (by rw [accepts.method]; decide), serve, accepts.read]
  exact ⟨congrArg opened written, shows⟩

/-- A request with the path of a key is served by the endpoint of its method. -/
theorem run_concerns {method : Bytes} {endpoint : Bytes → Endpoint} (nonempty : key ≠ [])
    (free : key ∉ Route.fixedNames) (concerns : Concerns key method request)
    (has : ∀ segment, Route.endpoint? method (.key segment) = some (endpoint segment))
    (others : method ≠ utf8 "HEAD" ∧ method ≠ utf8 "OPTIONS") (deployment : Deployment) :
    deployment.run (api.handle request) =
      (opened (deployment.run (api.serve request (endpoint (percentEncode key)))).1,
        (deployment.run (api.serve request (endpoint (percentEncode key)))).2) := by
  obtain ⟨rfl, target⟩ := concerns
  have found : Route.ofPath? request.target.path = some (.key (percentEncode key)) := by
    rw [target, read_keyPath]
    exact Route.ofPath?_keyPath nonempty free
  exact run_handle api deployment found (has _) others.1 others.2

theorem run_gets {get : Request} (shows : deployment.Shows api.entities.backend key shown)
    (addresses : Addresses (percentEncode key) key) (free : key ∉ Route.fixedNames)
    (gets : Concerns key (utf8 "GET") get) :
    (deployment.run (api.handle get)).1 = opened (afterGet key
        (((shown.filter fun entry => !entry.isExpired deployment.wall).map Entry.value).elim
          (.error (.notFound key)) .ok)) ∧
      (deployment.run (api.handle get)).2.Shows api.entities.backend key shown := by
  have handled : deployment.run (api.handle get) = (opened _, _) :=
    run_concerns addresses.nonempty free gets (fun _ => rfl) (by decide) deployment
  obtain ⟨answered, leaves⟩ := run_get shows get addresses
  rw [handled]
  exact ⟨congrArg opened answered, leaves⟩

theorem run_deletes {delete : Request} (shows : deployment.Shows api.entities.backend key shown)
    (addresses : Addresses (percentEncode key) key) (free : key ∉ Route.fixedNames)
    (deletes : Concerns key (utf8 "DELETE") delete) :
    (deployment.run (api.handle delete)).1 = opened (jsonResponse 200 (deleteDocument key
        (shown.filter fun entry => !entry.isExpired deployment.wall).isSome)) ∧
      (deployment.run (api.handle delete)).2.Shows api.entities.backend key none := by
  have handled : deployment.run (api.handle delete) = (opened _, _) :=
    run_concerns addresses.nonempty free deletes (fun _ => rfl) (by decide) deployment
  obtain ⟨answered, leaves⟩ := run_delete shows delete addresses
  rw [handled]
  exact ⟨congrArg opened answered, leaves⟩

/-- **Every key that may be put can be reached**, unless its name has a path of its own.  A document without
floating-point numbers is put.  As long as its lifetime has not elapsed, whatever happens that leaves the
key alone, it is read under the path of the key, and a deletion of that path tells that it was there;
after that, there is nothing to be read.

The lifetime must have less than `2 ^ 64` milliseconds, and the clock must not have come to the last
representable time. -/
theorem reachable (api : ManagementApi) (deployment : Deployment)
    (serves : deployment.Serves api.entities.backend store) {put get delete : Request}
    (accepts : Accepts put body) (floatFree : FloatFree body.value)
    (free : body.key ∉ Route.fixedNames)
    (fits : ((Duration.ofSecs (body.ttl.getD 0)).orDefault
      api.entities.backend.options.defaultLifetime).wholeMillis < word64)
    (gets : Concerns body.key (utf8 "GET") get) (deletes : Concerns body.key (utf8 "DELETE") delete)
    {toGet toDelete toMiss : List Incident}
    (leaves : ∀ incident ∈ toGet ++ (toDelete ++ toMiss),
      incident.Leaves api.entities.backend.id body.key) :
    let lasts := Lasts api.entities.backend.options.defaultLifetime deployment.wall (body.ttl.getD 0)
    let posted := deployment.run (api.handle put)
    let getting := posted.2.reach toGet
    let got := getting.run (api.handle get)
    let deleting := got.2.reach toDelete
    let deleted := deleting.run (api.handle delete)
    let missing := deleted.2.reach toMiss
    posted.1 = opened (jsonResponse 200 (setDocument body.key)) ∧
      (getting.wall < word64 - 1 → lasts getting.wall →
        got.1 = opened (valueResponse body.key body.value)) ∧
      (deleting.wall < word64 - 1 → lasts deleting.wall →
        deleted.1 = opened (jsonResponse 200 (deleteDocument body.key true))) ∧
      (missing.run (api.handle get)).1 = opened (failureResponse (.notFound body.key)) := by
  intro lasts posted getting got deleting deleted missing
  obtain ⟨beforeGet, others⟩ := List.forall_mem_append.mp leaves
  obtain ⟨beforeDelete, beforeMiss⟩ := List.forall_mem_append.mp others
  have addresses := addresses_of_accepts accepts
  let last := (deployment.wall, body.value, body.ttl.getD 0)
  -- What was put is shown until it is deleted.
  obtain ⟨accepted, shows⟩ := run_accepts accepts serves
  obtain ⟨answered, shows'⟩ := run_gets (shows.reach beforeGet) addresses free gets
  obtain ⟨told, gone⟩ := run_deletes (shows'.reach beforeDelete) addresses free deletes
  obtain ⟨missed, -⟩ := run_gets (gone.reach beforeMiss) addresses free gets
  have unexpired : ∀ {now}, now < word64 - 1 → lasts now →
      (putEntry api.entities.backend.options last).isExpired now = false :=
    fun early => (isExpired_putEntry_iff_of_fits fits early).mpr
  have read : afterGet body.key (.ok (putEntry api.entities.backend.options last).value) =
      valueResponse body.key body.value := by
    have found := @read_putEntry_of_regular last (wellFormed_of_setRequest accepts.read).2 floatFree
      api.entities.backend.options
    rw [afterGet, found]
    rfl
  refine ⟨accepted, fun early before => ?_, fun early before => ?_, missed⟩
  · rw [Option.filter_some, unexpired early before] at answered
    exact answered.trans (congrArg opened read)
  · rw [Option.filter_some, unexpired early before] at told
    exact told

/-- A request to put the number one. -/
def putOne (key : Bytes) (seconds : Nat) : Request :=
  { samplePut with body := (putDocument key (.int 1) seconds).text }

/-- A request with the path of a key. -/
def keyRequest (key method : Bytes) : Request :=
  { samplePut with method, target := Target.read (keyPath key), body := [] }

theorem accepts_putOne {key : Bytes} {seconds : Nat} (text : key.isText = true)
    (fine : keyObjection? key = none) (fits : seconds < word64)
    (length : (putOne key seconds).body.length ≤ maxBody) :
    Accepts (putOne key seconds) ⟨key, .int 1, some seconds⟩ := by
  have declared : declaresJson samplePut.fields = true := by with_unfolding_all decide
  exact ⟨rfl, rfl, readBody_putDocument rfl declared length text (.int (by decide) (by decide))
    (.int 1) fits, fine⟩

/-- A key with a slash, a blank, a question mark and a letter that is not ASCII is put for two seconds.
After one second, a sweep and the deletion of another key, it is read; then it is deleted. -/
theorem reachable_awkward :
    let key := utf8 "a/b é?"
    let get := keyRequest key (utf8 "GET")
    let posted := sample.2.run ((of sample.1 0).handle (putOne key 2))
    let getting := posted.2.reach [.advance (.ofSecs 1), .sweep 0]
    let got := getting.run ((of sample.1 0).handle get)
    let deleting := got.2.reach [.ask (.perform 0 .background (.delete (utf8 "a")))]
    let deleted := deleting.run ((of sample.1 0).handle (keyRequest key (utf8 "DELETE")))
    got.1 = opened (valueResponse key (.int 1)) ∧
      deleted.1 = opened (jsonResponse 200 (deleteDocument key true)) ∧
      (deleted.2.run ((of sample.1 0).handle get)).1 = opened (failureResponse (.notFound key)) := by
  intro key get posted getting got deleting deleted
  have accepts : Accepts (putOne key 2) ⟨key, .int 1, some 2⟩ :=
    accepts_putOne (by decide) (by decide) (by decide) (by with_unfolding_all decide)
  have serves : sample.2.Serves sample.1 (.fresh .standard) :=
    Deployment.serves_addLocal _ .standard Sweeper.standardInterval
  have leaves : ∀ incident ∈ [Incident.advance (.ofSecs 1), .sweep 0] ++
      ([.ask (.perform 0 .background (.delete (utf8 "a")))] ++ []), incident.Leaves 0 key := by
    refine List.forall_mem_cons.mpr ⟨trivial, List.forall_mem_cons.mpr ⟨trivial,
      List.forall_mem_singleton.mpr fun _ => ?_⟩⟩
    decide
  have gets : Concerns key (utf8 "GET") get := ⟨rfl, rfl⟩
  have deletes : Concerns key (utf8 "DELETE") (keyRequest key (utf8 "DELETE")) := ⟨rfl, rfl⟩
  obtain ⟨-, read, removed, missed⟩ := reachable (of sample.1 0) sample.2 serves accepts (.int 1)
    (by decide) (by decide) gets deletes leaves
  have wall : getting.wall = 1700000001000 ∧ deleting.wall = 1700000001000 := by decide +kernel
  refine ⟨read ?_ ?_, removed ?_ ?_, missed⟩
  · exact lt_of_eq_of_lt wall.1 (by decide)
  · exact .inr (lt_of_eq_of_lt wall.1 (by decide))
  · exact lt_of_eq_of_lt wall.2 (by decide)
  · exact .inr (lt_of_eq_of_lt wall.2 (by decide))

/-- A document may be put under `set`, but under the path of that key it can be neither read nor
deleted. -/
theorem fixedName_unreachable :
    let key := utf8 "set"
    let posted := sample.2.run ((of sample.1 0).handle (putOne key 2))
    keyObjection? key = none ∧ posted.1.status = 200 ∧
      (posted.2.run ((of sample.1 0).handle (keyRequest key (utf8 "GET")))).1.status = 405 ∧
      (posted.2.run ((of sample.1 0).handle (keyRequest key (utf8 "DELETE")))).1.status = 405 := by
  intro key posted
  have accepts : Accepts (putOne key 2) ⟨key, .int 1, some 2⟩ :=
    accepts_putOne (by decide) (by decide) (by decide) (by with_unfolding_all decide)
  have serves : sample.2.Serves sample.1 (.fresh .standard) :=
    Deployment.serves_addLocal _ .standard Sweeper.standardInterval
  have accepted : posted.1 = opened (jsonResponse 200 (setDocument key)) :=
    (run_accepts accepts serves).1
  exact ⟨rfl, congrArg Response.status accepted, by with_unfolding_all rfl, by with_unfolding_all rfl⟩

end ManagementApi

end TimedCache
