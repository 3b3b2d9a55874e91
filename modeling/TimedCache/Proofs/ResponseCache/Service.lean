import TimedCache.Proofs.ResponseCache.Bypass
import TimedCache.Proofs.Text.Decimal

/-!
# How requests are served

A response cache serves a request in one of three ways (`ResponseCache.Served`).  It passes the request
on, and asks the backend nothing.  It looks for a stored response, and replays what it finds.  Or it looks
in vain, has the handler run, and stores the response if this qualifies (`CachePolicy.Qualifies`).

**The surroundings are arbitrary.**  Lookups and writes may fail in any way, and what is read may be
anything.  Whatever they answer, each request is served in one of these ways
(`ResponseCache.wrap_serves`).  So a response that is not replayed is that of the handler, which has run
once, and only what qualifies is stored, once, and after a lookup in vain.

**One thing is taken for granted**: the clock can show the deadlines of the lookup and of the write
(`Context.isOnClock`).  A policy whose timeout reaches beyond the clock serves nobody, as the request
stops where it asks for the context.

## Main Definitions

* `CachePolicy.Qualifies` — which responses may be stored
* `ResponseCache.Asks` — the notes of one operation of the backend
* `ResponseCache.InVain` — what a lookup may find that cannot be replayed
* `ResponseCache.Served` — how a request may be served
-/

namespace TimedCache

open Http

namespace CachePolicy

/-- The response may be stored, with this body. -/
structure Qualifies (policy : CachePolicy) (given : Response) (body : Bytes) : Prop where
  status : given.status = 200
  whole : given.body = .whole body
  nonempty : body ≠ []
  small : body.length ≤ policy.maxBody
  /-- If the first value of `content-length` is a number that fits into a machine word, it is not too
  large. -/
  declared : ∀ {value : Bytes} {size : Nat},
    (given.fields.values (utf8 "content-length")).head? = some value → DenotesNat value size →
      size < word64 → size ≤ policy.maxBody

/-- Numbers are text. -/
theorem isVisible_of_denotesNat {value : Bytes} {n : Nat} (denotes : DenotesNat value n) :
    isVisible value = true := by
  obtain ⟨digits, decimal, text⟩ := denotes
  have visible : isVisible digits = true := by
    refine List.all_eq_true.mpr fun b mem => ?_
    have digit := List.all_eq_true.mp decimal.digit b mem
    simp only [isDigitByte, Bool.and_eq_true, Bool.or_eq_true, decide_eq_true_eq] at digit ⊢
    exact .inl ⟨UInt8.le_trans (by decide) digit.1, UInt8.le_trans digit.2 (by decide)⟩
  rcases text with rfl | rfl
  · exact visible
  · rw [isVisible, List.all_cons, ← isVisible, visible]
    rfl

theorem declaresTooLarge_eq_false_iff {policy : CachePolicy} {fields : Fields} :
    policy.declaresTooLarge fields = false ↔ ∀ {value : Bytes} {size : Nat},
      (fields.values (utf8 "content-length")).head? = some value → DenotesNat value size →
        size < word64 → size ≤ policy.maxBody := by
  constructor
  · intro small value size first denotes word
    have text : fields.firstText? (utf8 "content-length") = some value := by
      rw [Fields.firstText?, Fields.first?, first, Option.filter_some,
        if_pos (isVisible_of_denotesNat denotes)]
    rw [declaresTooLarge, text, Option.bind_some, readNat?_eq_some_iff.mpr ⟨word, denotes⟩] at small
    exact Nat.not_lt.mp (of_decide_eq_false small)
  · intro small
    unfold declaresTooLarge
    split
    next size read =>
      obtain ⟨value, text, read⟩ := Option.bind_eq_some_iff.mp read
      obtain ⟨word, denotes⟩ := readNat?_eq_some_iff.mp read
      have first := (Option.filter_eq_some_iff.mp text).1
      exact decide_eq_false (Nat.not_lt.mpr (small first denotes word))
    next => rfl

theorem qualifies_iff {policy : CachePolicy} {given : Response} {body : Bytes} :
    policy.Qualifies given body ↔ (given.status = 200 ∧ policy.declaresTooLarge given.fields = false) ∧
      given.body = .whole body ∧ policy.admits body = true := by
  rw [declaresTooLarge_eq_false_iff, admits, Bool.and_eq_true, Bool.not_eq_true',
    List.isEmpty_eq_false_iff, decide_eq_true_eq]
  constructor
  · rintro ⟨status, whole, nonempty, small, declared⟩
    exact ⟨⟨status, declared⟩, whole, nonempty, small⟩
  · rintro ⟨⟨status, declared⟩, whole, nonempty, small⟩
    exact ⟨status, whole, nonempty, small, declared⟩

end CachePolicy

namespace ResponseCache

variable {cache : ResponseCache} {handler : Handler} {request : Request}

/-- The key under which the cache looks for a response, and under which it stores one. -/
def key (cache : ResponseCache) (request : Request) : Bytes :=
  Fingerprint.key cache.policy.namespaceText cache.policy.vary request

/-! ### One operation -/

/-- The notes of one operation of the backend: a context is made that ends in time, and under this the
operation is performed, with this answer. -/
def Asks (cache : ResponseCache) (op : Operation) (answer : op.Answer) (notes : List Note) : Prop :=
  ∃ worker wall worker' wall' context,
    notes = [⟨worker, wall, .limitedContext cache.policy.backendTimeout, context⟩,
      ⟨worker', wall', .perform cache.backend.id context op, answer⟩]

theorem asks_of_walks {op : Operation} {notes : List Note} {answer : op.Answer}
    (walks : (cache.limited op).Walks notes (.done answer)) : cache.Asks op answer notes := by
  change Program.Walks (.ask (.limitedContext cache.policy.backendTimeout) fun context =>
    .ask (.perform cache.backend.id context op) .done) notes (.done answer) at walks
  cases walks with
  | step walks =>
      cases walks with
      | step walks =>
          cases walks
          exact ⟨_, _, _, _, _, rfl⟩

/-! ### Looking -/

/-- What a lookup may find that cannot be replayed. -/
inductive InVain : Except CacheError Bytes → Prop
  /-- The lookup fails; that there is nothing is a failure as well. -/
  | failed (failure : CacheError) : InVain (.error failure)
  /-- What is stored is no snapshot. -/
  | garbled {data : Bytes} {fault : Json.Fault}
      (refused : Json.decode Snapshot.reader data = .error fault) : InVain (.ok data)
  /-- The status of the snapshot is none. -/
  | noStatus {data : Bytes} {snapshot : Snapshot} (read : Json.decode Snapshot.reader data = .ok snapshot)
      (odd : ¬(100 ≤ snapshot.status ∧ snapshot.status < 1000)) : InVain (.ok data)

/-- What a lookup finds can be replayed as this response. -/
def Replays (cache : ResponseCache) (found : Except CacheError Bytes) (response : Response) : Prop :=
  ∃ data snapshot, found = .ok data ∧ Json.decode Snapshot.reader data = .ok snapshot ∧
    snapshot.replay? cache.policy.excluded = some response

/-- What is found is replayed, or is in vain. -/
theorem replays_or_inVain (cache : ResponseCache) (answer : Except CacheError Bytes) :
    (∃ response, answer.toOption.bind cache.restore? = some response ∧ cache.Replays answer response) ∨
      (answer.toOption.bind cache.restore? = none ∧ InVain answer) := by
  cases answer with
  | error failure => exact .inr ⟨rfl, .failed failure⟩
  | ok data =>
      change (∃ response, cache.restore? data = some response ∧ cache.Replays (.ok data) response) ∨
        (cache.restore? data = none ∧ InVain (.ok data))
      cases read : Json.decode Snapshot.reader data with
      | error fault => exact .inr ⟨by rw [restore?, read], .garbled read⟩
      | ok snapshot =>
          cases replayed : snapshot.replay? cache.policy.excluded with
          | some response =>
              exact .inl ⟨response, by rw [restore?, read, ← replayed], data, snapshot, rfl, read, replayed⟩
          | none =>
              -- Nothing but the status keeps a snapshot from being replayed.
              refine .inr ⟨by rw [restore?, read, ← replayed], .noStatus read fun status => ?_⟩
              have isStatus : isStatus snapshot.status = true := by
                rw [isStatus, Bool.and_eq_true, decide_eq_true_eq, decide_eq_true_eq]
                exact status
              rw [Snapshot.replay?, if_pos isStatus] at replayed
              cases replayed

/-! ### Storing -/

/-- Whether and how a response is stored: if it qualifies, one write is asked for, and else nothing. -/
inductive Stores (cache : ResponseCache) (key : Bytes) (given : Response) : List Note → Prop
  | stored {body : Bytes} {notes : List Note} {answer : Except CacheError Unit}
      (qualifies : cache.policy.Qualifies given body)
      (asks : cache.Asks (.set key
        (Snapshot.capture 200 given.fields body cache.policy.excluded).json.text cache.policy.ttl)
        answer notes) : Stores cache key given notes
  | unfit (unfit : ∀ body, ¬cache.policy.Qualifies given body) : Stores cache key given []

theorem store_of_qualifies {given : Response} {body : Bytes}
    (qualifies : cache.policy.Qualifies given body) (key : Bytes) :
    cache.store key given = (cache.limited (.set key
      (Snapshot.capture 200 given.fields body cache.policy.excluded).json.text
        cache.policy.ttl)).bind fun _ => .done given := by
  obtain ⟨⟨status, declared⟩, whole, admits⟩ := CachePolicy.qualifies_iff.mp qualifies
  rw [store, if_neg (by simp [status, declared]), whole]
  dsimp only
  rw [if_pos admits, status]
  rfl

theorem store_of_unfit {given : Response} (inMemory : given.body ≠ .broken)
    (unfit : ∀ body, ¬cache.policy.Qualifies given body) (key : Bytes) :
    cache.store key given = .done given := by
  rw [store]
  split
  next => rfl
  next head =>
    cases whole : given.body with
    | broken => exact absurd whole inMemory
    | whole body =>
        dsimp only
        split
        next admits =>
          rw [Bool.or_eq_true, decide_eq_true_eq, not_or, not_not, Bool.not_eq_true] at head
          exact absurd (CachePolicy.qualifies_iff.mpr ⟨head, whole, admits⟩) (unfit body)
        next => rfl

/-- A response is handed on as it is, and stored if it qualifies. -/
theorem stores_of_walks {notes : List Note} {given response : Response} {key : Bytes}
    (inMemory : given.body ≠ .broken) (walks : (cache.store key given).Walks notes (.done response)) :
    response = given ∧ cache.Stores key given notes := by
  by_cases fit : ∃ body, cache.policy.Qualifies given body
  · obtain ⟨body, qualifies⟩ := fit
    rw [store_of_qualifies qualifies] at walks
    obtain ⟨answer, asking, same⟩ := Program.walks_map_done walks
    exact ⟨same, .stored qualifies (asks_of_walks asking)⟩
  · have unfit := not_exists.mp fit
    rw [store_of_unfit inMemory unfit] at walks
    cases walks
    exact ⟨rfl, .unfit unfit⟩

/-! ### Serving -/

/-- How a request may be served: with these notes, and with this response. -/
inductive Served (cache : ResponseCache) (handler : Handler) (request : Request) :
    List Note → Response → Prop
  /-- The request is passed on, and the backend is asked nothing. -/
  | bypassed {handled : List Note} {given response : Response}
      (bypasses : cache.policy.Bypasses request)
      (ran : (handler request).Walks handled (.done given)) (fresh : Fresh given response) :
      Served cache handler request handled response
  /-- A stored response is replayed, and the handler does not run. -/
  | hit {looked : List Note} {answer : Except CacheError Bytes} {replayed : Response}
      (eligible : ¬cache.policy.Bypasses request)
      (looks : cache.Asks (.get (cache.key request)) answer looked)
      (replays : cache.Replays answer replayed) :
      Served cache handler request looked (tagged replayed "HIT")
  /-- The cache looks in vain, the handler runs, and its response is stored if it qualifies. -/
  | missed {looked handled stored : List Note} {answer : Except CacheError Bytes}
      {given response : Response} (eligible : ¬cache.policy.Bypasses request)
      (looks : cache.Asks (.get (cache.key request)) answer looked) (inVain : InVain answer)
      (ran : (handler request).Walks handled (.done given))
      (stores : cache.Stores (cache.key request) given stored) (fresh : Fresh given response) :
      Served cache handler request (looked ++ handled ++ stored) response

theorem wrap_of_eligible (eligible : ¬cache.policy.Bypasses request) :
    cache.wrap handler request = (cache.lookup (cache.key request)).bind fun
      | some response => .done (tagged response "HIT")
      | none => (handler request).bind fun given =>
        (cache.store (cache.key request) given).bind fun response => .done (tagged response "MISS") :=
  if_neg fun bypasses => eligible (CachePolicy.bypasses_iff.mp bypasses)

theorem served_of_walks {notes : List Note} {response : Response}
    (inMemory : (handler request).Always (fun _ => True) fun given => given.body ≠ .broken)
    (walks : (cache.wrap handler request).Walks notes (.done response)) :
    cache.Served handler request notes response := by
  by_cases bypasses : cache.policy.Bypasses request
  · rw [wrap_of_bypasses bypasses] at walks
    obtain ⟨given, ran, rfl⟩ := Program.walks_map_done walks
    exact .bypassed bypasses ran (fresh_tagged given)
  · rw [wrap_of_eligible bypasses, lookup_eq] at walks
    obtain ⟨looked, rest, found, rfl, looking, walks⟩ := Program.walks_bind_done walks
    obtain ⟨answer, asking, rfl⟩ := Program.walks_map_done looking
    have looks := asks_of_walks asking
    obtain ⟨replayed, found, replays⟩ | ⟨nothing, inVain⟩ := cache.replays_or_inVain answer
    · rw [found] at walks
      cases walks
      rw [List.append_nil]
      exact .hit bypasses looks replays
    · rw [nothing] at walks
      obtain ⟨handled, stored, given, rfl, ran, walks⟩ := Program.walks_bind_done walks
      obtain ⟨handedOn, storing, rfl⟩ := Program.walks_map_done walks
      have whole : given.body ≠ .broken := (inMemory.walks ran).2
      obtain ⟨rfl, stores⟩ := stores_of_walks whole storing
      rw [← List.append_assoc]
      exact .missed bypasses looks inVain ran stores (fresh_tagged _)

/-- **Every request is served** in one of these ways, whatever the surroundings are, if no body of the
handler breaks off.  The contexts that the surroundings make are taken to end on the clock. -/
theorem wrap_serves (cache : ResponseCache) {handler : Handler} {request : Request}
    (inMemory : (handler request).Always (fun _ => True) fun given => given.body ≠ .broken)
    {σ : Type} (worker : Nat) (clock : σ → Nat) (answer : (call : Call) → σ → call.Answer × σ) (s : σ) :
    cache.Served handler request ((cache.wrap handler request).notes worker clock answer s)
      ((cache.wrap handler request).run answer s).1 :=
  served_of_walks inMemory (Program.walks_notes _ s)

/-- A deployment with a backend that is closed, so that every lookup and every write fails. -/
def downStart : Deployment :=
  let opened := (Deployment.start 1000).addLocal .standard Sweeper.standardInterval
  (opened.2.perform opened.1.id .background .close).2.addCounter.2

/-- A handler that counts how often it runs, and pretends that its page is from the cache. -/
def countingPage : Handler := fun _ => do
  let _ ← Program.ticket 0
  return ⟨200, [(cacheTag, utf8 "HIT"), (utf8 "set-cookie", utf8 "id=1")], .whole (utf8 "page")⟩

/-- Though all of the backend fails, the page is served, and the handler runs once. -/
theorem wrap_serves_downStart :
    let visit := Visit.sampleCache.wrap countingPage (Visit.sampleRequest "alice")
    (countingPage (Visit.sampleRequest "alice")).Always (fun _ => True)
        (fun given => given.body ≠ .broken) ∧
      Visit.sampleCache.Served countingPage (Visit.sampleRequest "alice")
        (visit.notes 0 Deployment.wall Deployment.answer downStart) (downStart.run visit).1 ∧
      (downStart.run visit).1 =
        ⟨200, [(utf8 "set-cookie", utf8 "id=1"), (cacheTag, utf8 "MISS")], .whole (utf8 "page")⟩ ∧
      (downStart.run visit).2.drawn 0 = 1 := by
  have inMemory : (countingPage (Visit.sampleRequest "alice")).Always (fun _ => True)
      (fun given => given.body ≠ .broken) := ⟨trivial, fun _ => nofun⟩
  exact ⟨inMemory, wrap_serves Visit.sampleCache inMemory 0 Deployment.wall Deployment.answer downStart,
    by decide +kernel, by decide +kernel⟩

end ResponseCache

end TimedCache
