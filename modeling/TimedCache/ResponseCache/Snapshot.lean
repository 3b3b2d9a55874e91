import TimedCache.Base64
import TimedCache.Http.Message
import TimedCache.Json.Reader

/-!
# Snapshots of responses

A snapshot is a response **as it is stored**: status, type of the body, the body itself, and the
header fields that may be stored, grouped by name in ascending order.  Values that are not text
cannot be stored and are left out, one by one.

**Documents.**  A snapshot is stored as a JSON document, in which the body is written in base64.

**Replaying** a snapshot gives back a response, unless the status is none.  What may not be replayed
is left out, even if it was stored.  A snapshot without a field for the type of its body gets it from
the separately stored type.

## Main Definitions

* `Snapshot` — a response as it is stored
* `Snapshot.capture` — takes a snapshot
* `Snapshot.json`, `Snapshot.reader` — its document
* `Snapshot.replay?` — the response of a snapshot
-/

namespace TimedCache

open Http

/-- The header field that tells whether a response came from the cache. -/
def cacheTag : Bytes := utf8 "x-cache"

/-- The header field that tells the type of a body. -/
def contentType : Bytes := utf8 "content-type"

/-- A response as it is stored. -/
structure Snapshot where
  status : Nat
  contentType : Bytes
  body : Bytes
  /-- Names in ascending order, each with its values in the order in which they came. -/
  fields : List (Bytes × List Bytes)
  deriving DecidableEq, Repr, Inhabited

namespace Snapshot

/-! ### Taking snapshots -/

/-- Whether a header field may be stored. -/
def isStored (excluded : List Bytes) (field : Bytes × Bytes) : Bool :=
  !excluded.contains field.1 && field.1 ≠ cacheTag && isVisible field.2

/-- Adds a value to its name in a grouping that is in ascending order. -/
def addValue (name value : Bytes) : List (Bytes × List Bytes) → List (Bytes × List Bytes)
  | [] => [(name, [value])]
  | (other, values) :: rest =>
    if name = other then (other, values ++ [value]) :: rest
    else if Bytes.before name other then (name, [value]) :: (other, values) :: rest
    else (other, values) :: addValue name value rest

/-- Groups header fields by name. -/
def group (fields : Fields) : List (Bytes × List Bytes) :=
  fields.foldl (fun groups field => addValue field.1 field.2 groups) []

/-- Takes a snapshot. -/
def capture (status : Nat) (fields : Fields) (body : Bytes) (excluded : List Bytes) : Snapshot :=
  ⟨status, (fields.firstText? TimedCache.contentType).getD [], body,
    group (fields.filter (isStored excluded))⟩

/-! ### Documents -/

/-- The document of a snapshot. -/
def json (snapshot : Snapshot) : Json :=
  .object
    [("status_code", .nat snapshot.status),
      ("content_type", .str snapshot.contentType),
      ("body", .str (Base64.encode snapshot.body)),
      ("headers",
        .obj (snapshot.fields.map fun group => (group.1, .arr (group.2.map Json.str))))]

/-- Puts values under their name into a grouping that is in ascending order; what was there under
the name is replaced. -/
def putValues (name : Bytes) (values : List Bytes) :
    List (Bytes × List Bytes) → List (Bytes × List Bytes)
  | [] => [(name, values)]
  | (other, old) :: rest =>
    if name = other then (other, values) :: rest
    else if Bytes.before name other then (name, values) :: (other, old) :: rest
    else (other, old) :: putValues name values rest

/-- The parts of a snapshot that have been read. -/
structure Draft where
  status : Option Nat
  contentType : Option Bytes
  body : Option Bytes
  fields : Option (List (Bytes × List Bytes))

/-- Completes a draft, in which no part may be missing. -/
def Draft.finish (draft : Draft) : Option Snapshot :=
  match draft.status, draft.contentType, draft.body, draft.fields with
  | some status, some contentType, some body, some fields =>
    some ⟨status, contentType, body, fields⟩
  | _, _, _, _ => none

/-- Reads the grouped header fields; of groups with one name the last counts. -/
def fieldsReader : Json.Reader (List (Bytes × List Bytes)) :=
  .filterMap (.tableOf (.list Json.Reader.text)) fun groups =>
    some (groups.foldl (fun sorted group => putValues group.1 group.2 sorted) [])

/-- Reads the document of a snapshot. -/
def reader : Json.Reader Snapshot :=
  .record
    [.of "status_code" (.word word16) Draft.status
        fun draft status => { draft with status := some status },
      .of "content_type" Json.Reader.text Draft.contentType
        fun draft contentType => { draft with contentType := some contentType },
      .of "body" (.filterMap Json.Reader.text Base64.decode?) Draft.body
        fun draft body => { draft with body := some body },
      .of "headers" fieldsReader Draft.fields fun draft fields => { draft with fields := some fields }]
    ⟨none, none, none, none⟩ Draft.finish

/-! ### Replaying -/

/-- The header fields of a group that may be replayed. -/
def replayGroup (excluded : List Bytes) (group : Bytes × List Bytes) : Fields :=
  match fieldName? group.1 with
  | none => []
  | some name =>
    if excluded.contains name then []
    else (group.2.filter isFieldValue).map fun value => (name, value)

/-- The field for the type of the body, if it is not there already. -/
def typeField (snapshot : Snapshot) (fields : Fields) : Fields :=
  if !fields.contains TimedCache.contentType && !snapshot.contentType.isEmpty
      && isFieldValue snapshot.contentType then
    [(TimedCache.contentType, snapshot.contentType)]
  else []

/-- The header fields of the replayed response. -/
def replayFields (snapshot : Snapshot) (excluded : List Bytes) : Fields :=
  let fields := snapshot.fields.flatMap (replayGroup excluded)
  fields ++ snapshot.typeField fields

/-- The response of a snapshot; none if the stored status is no status. -/
def replay? (snapshot : Snapshot) (excluded : List Bytes) : Option Response :=
  if isStatus snapshot.status then
    some ⟨snapshot.status, snapshot.replayFields excluded, .whole snapshot.body⟩
  else none

end Snapshot

end TimedCache
