import TimedCache.ManagementApi.Server
import TimedCache.Proofs.Json.Values

/-!
# What requests to the management interface are accepted as

A request is **accepted as a change** if it is to change what is stored, and nothing is wrong with it
(`ManagementApi.change?`); this is read off the request alone, without looking at the store.

The document of a change has come out of the body of a request, in which it is nested one level deep.
So it is regular and may be put into the document of a response (`ManagementApi.regular_of_put`).

## Main Definitions

* `Change` — what an accepted request changes
* `ManagementApi.change?` — the change that a request is accepted as
* `ManagementApi.Addresses` — a path segment that stands for an acceptable key
-/

namespace TimedCache

open Http Json

/-- What an accepted request changes. -/
inductive Change where
  /-- A document is put under a key, with a lifetime in seconds; zero stands for the default. -/
  | put (key : Bytes) (value : Json) (seconds : Nat)
  | delete (key : Bytes)
  | flush
  | invalidate (pattern : Bytes)

/-- Whether a change is about a key. -/
def Change.touches (key : Bytes) : Change → Bool
  | put other _ _ => other = key
  | delete other => other = key
  | flush => true
  | invalidate pattern => Glob.accepts pattern key

/-- Whether an endpoint reads or changes what is stored under keys. -/
def Endpoint.isKeyed : Endpoint → Bool
  | .flush | .invalidate | .set | .get _ | .delete _ => true
  | .stats | .health | .cacheHealth => false

namespace ManagementApi

/-- The change that a request is accepted as, if any. -/
def change? (request : Request) : Endpoint → Option Change
  | .set =>
    ((readBody SetRequest.reader request).toOption.filter fun body => body.objection?.isNone).map
      fun body => .put body.key body.value (body.ttl.getD 0)
  | .delete segment => (readKey segment).toOption.map .delete
  | .flush => some .flush
  | .invalidate =>
    ((readBody InvalidateRequest.reader request).toOption.filter
      fun body => body.objection?.isNone).map fun body => .invalidate body.pattern
  | _ => none

theorem eq_ok_of_toOption {ε α : Type} {read : Except ε α} {a : α} (found : read.toOption = some a) :
    read = .ok a := by
  cases read with
  | error refusal => cases found
  | ok other =>
      cases found
      rfl

/-- What a request is accepted as if it has been read and nothing is wrong with it. -/
theorem eq_some_of_accepted {α : Type} {read : Except Response α} {objection? : α → Option Bytes}
    {as : α → Change} {change : Change}
    (accepted : ((read.toOption.filter fun body => (objection? body).isNone).map as) = some change) :
    ∃ body, read = .ok body ∧ objection? body = none ∧ change = as body := by
  obtain ⟨body, found, rfl⟩ := Option.map_eq_some_iff.mp accepted
  obtain ⟨there, fine⟩ := Option.filter_eq_some_iff.mp found
  exact ⟨body, eq_ok_of_toOption there, Option.isNone_iff_eq_none.mp fine, rfl⟩

/-- A path segment stands for a key that is text of 1 to 256 bytes. -/
structure Addresses (segment key : Bytes) : Prop where
  decoded : percentDecode segment = key
  text : key.isText = true
  nonempty : key ≠ []
  short : key.length ≤ 256

theorem keyObjection?_eq_none_iff {key : Bytes} :
    keyObjection? key = none ↔ key ≠ [] ∧ key.length ≤ 256 := by
  unfold keyObjection?
  by_cases empty : key = []
  · simp [empty]
  · rw [if_neg (by simpa using empty)]
    by_cases long : maxKeyLength < key.length
    · rw [if_pos long]
      simp only [reduceCtorEq, false_iff, not_and, Nat.not_le]
      exact fun _ => long
    · rw [if_neg long]
      exact ⟨fun _ => ⟨empty, Nat.le_of_not_lt long⟩, fun _ => rfl⟩

/-- The keys that are accepted. -/
theorem readKey_eq_ok_iff {segment key : Bytes} :
    readKey segment = .ok key ↔ Addresses segment key := by
  unfold readKey
  dsimp only
  constructor
  · intro accepted
    split at accepted
    next => cases accepted
    next text =>
      split at accepted
      next => cases accepted
      next fine =>
        cases accepted
        obtain ⟨nonempty, short⟩ := keyObjection?_eq_none_iff.mp fine
        exact ⟨rfl, by simpa using text, nonempty, short⟩
  · rintro ⟨rfl, text, nonempty, short⟩
    rw [text, keyObjection?_eq_none_iff.mpr ⟨nonempty, short⟩]
    rfl

/-! ### Documents of requests -/

theorem exists_read_of_readBody {α : Type} {read : Reader α} {request : Request} {a : α}
    (accepted : readBody read request = .ok a) :
    ∃ rest, read maxLevels request.body = .ok (a, rest) := by
  unfold readBody at accepted
  split at accepted
  · cases accepted
  split at accepted
  · cases accepted
  split at accepted
  next decoded =>
    cases accepted
    unfold decodeFront at decoded
    cases found : read maxLevels request.body with
    | error fault =>
        rw [found] at decoded
        cases decoded
    | ok pair =>
        rw [found] at decoded
        cases decoded
        exact ⟨pair.2, rfl⟩
  · cases accepted
  · cases accepted

/-- What is read as a text is text. -/
theorem isText_of_text {levels : Nat} {s content rest : Bytes}
    (read : Reader.text levels s = .ok (content, rest)) : content.isText = true := by
  unfold Reader.text at read
  split at read
  · cases read
  split at read
  next behind _ _ =>
    cases found : readString behind with
    | none =>
        rw [found] at read
        cases read
    | some pair =>
        rw [found] at read
        cases read
        exact isText_of_readString found
  · cases read

/-- A request to set a key names a text, and its document is regular: it is nested in the document of
the body. -/
theorem wellFormed_of_setRequest {request : Request} {body : SetRequest}
    (accepted : readBody SetRequest.reader request = .ok body) :
    body.key.isText = true ∧ Regular 126 body.value := by
  obtain ⟨rest, read⟩ := exists_read_of_readBody accepted
  let Inv (draft : SetRequest.Draft) : Prop :=
    (∀ key, draft.key = some key → key.isText = true) ∧
      ∀ value, draft.value = some value → Regular 126 value
  have filled : ∃ draft, Inv draft ∧ draft.finish = some body := by
    have start : Inv ⟨none, none, none⟩ := ⟨by rintro _ ⟨⟩, by rintro _ ⟨⟩⟩
    refine FillsKeep.record ?_ start read
    intro part mem state s state' rest inv filled
    obtain ⟨keyed, valued⟩ := inv
    simp only [List.mem_cons, List.not_mem_nil, or_false] at mem
    obtain rfl | rfl | rfl := mem
    · obtain ⟨key, read, rfl⟩ := Field.exists_of_fill filled
      refine ⟨?_, valued⟩
      rintro _ ⟨⟩
      exact isText_of_text read
    · obtain ⟨value, read, rfl⟩ := Field.exists_of_fill filled
      refine ⟨keyed, ?_⟩
      rintro _ ⟨⟩
      exact regular_of_value read
    · obtain ⟨ttl, -, rfl⟩ := Field.exists_of_fill filled
      exact ⟨keyed, valued⟩
  obtain ⟨draft, ⟨keyed, valued⟩, complete⟩ := filled
  unfold SetRequest.Draft.finish at complete
  split at complete
  next key value named found =>
    cases complete
    exact ⟨keyed key named, valued value found⟩
  · cases complete

/-- **The document of a change** is regular. -/
theorem regular_of_put {request : Request} {endpoint : Endpoint} {key : Bytes} {value : Json}
    {seconds : Nat} (accepted : change? request endpoint = some (.put key value seconds)) :
    Regular 126 value := by
  cases endpoint with
  | set =>
      obtain ⟨body, read, -, same⟩ := eq_some_of_accepted accepted
      cases same
      exact (wellFormed_of_setRequest read).2
  | delete segment =>
      obtain ⟨key, -, same⟩ := Option.map_eq_some_iff.mp accepted
      cases same
  | invalidate =>
      obtain ⟨body, -, -, same⟩ := eq_some_of_accepted accepted
      cases same
  | flush => cases accepted
  | stats | get segment | health | cacheHealth => cases accepted

/-- The document of a request to put a document. -/
def putDocument (key : Bytes) (value : Json) (seconds : Nat) : Json :=
  .object [("key", .str key), ("value", value), ("ttl", .nat seconds)]

theorem reads_putDocument {key : Bytes} {value : Json} {seconds : Nat} (text : key.isText = true)
    (regular : Regular 126 value) (free : FloatFree value) (fits : seconds < word64) :
    Reads SetRequest.reader maxLevels (putDocument key value seconds) ⟨key, value, some seconds⟩ := by
  have keyRead : Reads Reader.text 126 (.str key) key := .text text
  have valueRead : Reads Reader.value 126 value value := .value regular free
  have ttlRead : Reads (.optional (.word word64)) 126 (.nat seconds) (some seconds) :=
    .optional (.word fits fits) (head?_write_nat seconds)
  have complete : SetRequest.Draft.finish ⟨some key, some value, some (some seconds)⟩ =
      some ⟨key, value, some seconds⟩ := rfl
  refine Reads.record ?_ complete
  change TakesAll _ _ [(utf8 "key", _), (utf8 "value", _), (utf8 "ttl", _)] _
  refine .cons (takes_recordField (Bytes.isText_utf8 _) rfl rfl keyRead.fill) ?_
  refine .cons (takes_recordField (Bytes.isText_utf8 _) rfl rfl valueRead.fill) ?_
  exact .cons (takes_recordField (Bytes.isText_utf8 _) rfl rfl ttlRead.fill) (.nil _)

/-- **Every document can be put** under every acceptable key, as long as the request is not too long. -/
theorem readBody_putDocument {request : Request} {key : Bytes} {value : Json} {seconds : Nat}
    (body : request.body = (putDocument key value seconds).text)
    (declared : declaresJson request.fields = true) (length : request.body.length ≤ maxBody)
    (text : key.isText = true) (regular : Regular 126 value) (free : FloatFree value)
    (fits : seconds < word64) :
    readBody SetRequest.reader request = .ok ⟨key, value, some seconds⟩ := by
  have decoded : decodeFront SetRequest.reader request.body = .ok ⟨key, value, some seconds⟩ := by
    rw [decodeFront, body, Json.text, (reads_putDocument text regular free fits).reads [] rfl]
    rfl
  rw [readBody, declared, if_neg (by decide), if_neg (Nat.not_lt.mpr length), decoded]

theorem change?_set {request : Request} {body : SetRequest}
    (read : readBody SetRequest.reader request = .ok body) (nonempty : body.key ≠ [])
    (short : body.key.length ≤ 256) :
    change? request .set = some (.put body.key body.value (body.ttl.getD 0)) := by
  have fine : body.objection? = none := keyObjection?_eq_none_iff.mpr ⟨nonempty, short⟩
  simp only [change?, read, Except.toOption, Option.filter_some, fine]
  rfl

/-! ### Refusals -/

theorem status_of_readBody {α : Type} {read : Reader α} {request : Request} {refusal : Response}
    (refused : readBody read request = .error refusal) : refusal.status ≠ 200 := by
  unfold readBody at refused
  split at refused
  · cases refused
    exact (by decide : (415 : Nat) ≠ 200)
  split at refused
  · cases refused
    exact (by decide : (413 : Nat) ≠ 200)
  split at refused
  · cases refused
  · cases refused
    exact (by decide : (400 : Nat) ≠ 200)
  · cases refused
    exact (by decide : (422 : Nat) ≠ 200)

theorem status_of_readKey {segment : Bytes} {refusal : Response}
    (refused : readKey segment = .error refusal) : refusal.status = 400 := by
  unfold readKey at refused
  dsimp only at refused
  split at refused
  · cases refused
    rfl
  split at refused
  · cases refused
    rfl
  · cases refused

theorem exists_refusal_of_error {α : Type} {read : Except Response α} {refusal : Response}
    (next : α → Program Response) (refused : read = .error refusal) (status : refusal.status ≠ 200) :
    ∃ refusal, orRefuse read next = .done refusal ∧ refusal.status ≠ 200 :=
  ⟨refusal, by rw [refused]; rfl, status⟩

/-- The body of a request is refused if it cannot be read, or if something is wrong with it. -/
theorem exists_refusal_of_body {α : Type} {read : Except Response α} {objection? : α → Option Bytes}
    {as : α → Change} {next : α → Program Response}
    (unread : ∀ {refusal}, read = .error refusal → refusal.status ≠ 200)
    (objects : ∀ {body objection}, objection? body = some objection →
      next body = .done (failureResponse (.invalidRequest objection)))
    (refused : ((read.toOption.filter fun body => (objection? body).isNone).map as) = none) :
    ∃ refusal, orRefuse read next = .done refusal ∧ refusal.status ≠ 200 := by
  cases read with
  | error refusal => exact exists_refusal_of_error next rfl (unread rfl)
  | ok body =>
      cases objection : objection? body with
      | some reason => exact ⟨_, objects objection, (by decide : (400 : Nat) ≠ 200)⟩
      | none => simp [Except.toOption, objection] at refused

/-- **A request that is not accepted** is refused at once, unless it is to read a key. -/
theorem exists_refusal (api : ManagementApi) {request : Request} {endpoint : Endpoint}
    (keyed : endpoint.isKeyed = true) (refused : change? request endpoint = none)
    (noRead : ∀ segment key, endpoint = .get segment → ¬ Addresses segment key) :
    ∃ refusal, api.serve request endpoint = .done refusal ∧ refusal.status ≠ 200 := by
  have keyRefused : ∀ {segment refusal}, readKey segment = .error refusal →
      refusal.status ≠ 200 := by
    intro segment refusal found
    rw [status_of_readKey found]
    decide
  cases endpoint with
  | set =>
      refine exists_refusal_of_body status_of_readBody (fun objects => ?_) refused
      rw [serveSet, objects]
      rfl
  | invalidate =>
      refine exists_refusal_of_body status_of_readBody (fun objects => ?_) refused
      rw [serveInvalidate, objects]
      rfl
  | get segment =>
      cases found : readKey segment with
      | ok key => exact absurd (readKey_eq_ok_iff.mp found) (noRead segment key rfl)
      | error refusal => exact exists_refusal_of_error api.serveGet found (keyRefused found)
  | delete segment =>
      cases found : readKey segment with
      | ok key =>
          rw [change?, found] at refused
          cases refused
      | error refusal => exact exists_refusal_of_error api.serveDelete found (keyRefused found)
  | flush => cases refused
  | stats | health | cacheHealth => cases keyed

end ManagementApi

end TimedCache
