import TimedCache.EntityCache
import TimedCache.Http.MediaType
import TimedCache.ManagementApi.Request
import TimedCache.ManagementApi.Route
import TimedCache.Probe

/-!
# The management interface

An HTTP interface to one backend: read, write and delete documents, remove keys by pattern or
altogether, look at the counts, and probe the backend.

**Bodies.**  A request body must be declared as JSON and must not be longer than two mebibytes.
Only the document at its front is read.  A body that breaks the grammar is refused differently
from one that holds the wrong kind of document.

**Origins.**  Pages of any origin may use the interface, and a preflight request is answered
wherever it is sent.

## Main Definitions

* `ManagementApi` — the backend behind the interface
* `ManagementApi.serve` — answers a request to an endpoint
* `ManagementApi.handle` — answers any request
-/

namespace TimedCache

open Http

/-- The backend behind the interface, as a cache of documents and as an object of probes. -/
structure ManagementApi where
  entities : EntityCache
  health : HealthChecker
  deriving DecidableEq, Repr, Inhabited

namespace ManagementApi

/-- The interface to a backend, with a fresh counter for its probes. -/
def of (backend : Backend) (counter : Nat) : ManagementApi :=
  ⟨⟨backend, .standard⟩, ⟨backend, counter⟩⟩

/-- The time that the backend work of one request may take. -/
def requestTimeout : Duration := .ofSecs 5

/-- The longest body that is read. -/
def maxBody : Nat := 2097152

/-! ### Responses -/

/-- A response without a body. -/
def emptyResponse (status : Nat) : Response := ⟨status, [], .whole []⟩

/-- A response that is a document. -/
def jsonResponse (status : Nat) (document : Json) : Response :=
  ⟨status, [(utf8 "content-type", utf8 "application/json")], .whole document.text⟩

/-- A response that is plain text. -/
def textResponse (status : Nat) (text : String) : Response :=
  ⟨status, [(utf8 "content-type", utf8 "text/plain; charset=utf-8")], .whole (utf8 text)⟩

/-- The response to a failure. -/
def failureResponse (failure : CacheError) : Response :=
  jsonResponse failure.status (.object [("error", .str failure.message)])

/-- The response to a result that is written as a document. -/
def resultResponse {α : Type} (json : α → Json) : Except CacheError α → Response
  | .ok value => jsonResponse 200 (json value)
  | .error failure => failureResponse failure

/-! ### Reading requests -/

/-- Reads the document of a request body, or tells how the request is refused. -/
def readBody {α : Type} (read : Json.Reader α) (request : Request) : Except Response α :=
  if !declaresJson request.fields then .error (textResponse 415 "a JSON body is expected")
  else if maxBody < request.body.length then .error (textResponse 413 "the body is too long")
  else match Json.decodeFront read request.body with
    | .ok value => .ok value
    | .error .malformed => .error (textResponse 400 "the body is not JSON")
    | .error .wrongShape => .error (textResponse 422 "the body holds an unexpected document")

/-- The key that a path segment stands for, or how the request is refused. -/
def readKey (segment : Bytes) : Except Response Bytes :=
  let key := percentDecode segment
  if !key.isText then .error (textResponse 400 "the key is not text")
  else match keyObjection? key with
    | some objection => .error (failureResponse (.invalidRequest objection))
    | none => .ok key

/-! ### Endpoints -/

/-- The document that acknowledges a write. -/
def setDocument (key : Bytes) : Json :=
  .object [("message", .str (utf8 "Key '" ++ key ++ utf8 "' set successfully")), ("key", .str key)]

/-- The document that acknowledges a deletion. -/
def deleteDocument (key : Bytes) (existed : Bool) : Json :=
  .object
    [("message", .str (utf8 "Key '" ++ key ++ utf8 "' deleted successfully")), ("key", .str key),
      ("existed", .bool existed)]

/-- Tells the counts. -/
def serveStats (api : ManagementApi) : Program Response := do
  let context ← Program.limitedContext requestTimeout
  let result ← api.entities.stats context
  return resultResponse Report.json result

/-- Removes everything. -/
def serveFlush (api : ManagementApi) : Program Response := do
  let context ← Program.limitedContext requestTimeout
  let result ← api.entities.flush context
  return resultResponse (fun _ => .object [("message", .ofText "Cache flushed successfully")]) result

/-- Removes what a pattern matches. -/
def serveInvalidate (api : ManagementApi) (request : InvalidateRequest) : Program Response :=
  match request.objection? with
  | some objection => return failureResponse (.invalidRequest objection)
  | none => do
    let context ← Program.limitedContext requestTimeout
    let result ← api.entities.invalidate context request.pattern
    return resultResponse
      (fun removed => .object [("pattern", .str request.pattern), ("removed", .nat removed)]) result

/-- Stores a document.  Without a lifetime, that of the backend is taken. -/
def serveSet (api : ManagementApi) (request : SetRequest) : Program Response :=
  match request.objection? with
  | some objection => return failureResponse (.invalidRequest objection)
  | none => do
    let context ← Program.limitedContext requestTimeout
    let ttl := Duration.ofSecs (request.ttl.getD 0)
    let result ← api.entities.setValue context request.key request.value ttl
    return resultResponse (fun _ => setDocument request.key) result

/-- Reads the document of a key. -/
def serveGet (api : ManagementApi) (key : Bytes) : Program Response := do
  let context ← Program.limitedContext requestTimeout
  let result ← api.entities.getValue context key
  return resultResponse (fun value => .object [("key", .str key), ("value", value)]) result

/-- Deletes a key, and tells whether it was there. -/
def serveDelete (api : ManagementApi) (key : Bytes) : Program Response := do
  let context ← Program.limitedContext requestTimeout
  match ← Program.perform api.entities.backend.id context (.has key) with
  | .error failure => return failureResponse failure
  | .ok existed =>
    let result ← api.entities.deleteValue context key
    return resultResponse (fun _ => deleteDocument key existed) result

/-- Tells that the server is alive. -/
def serveHealth : Program Response := do
  let wall ← Program.wallClock
  return jsonResponse 200
    (.object [("status", .ofText "healthy"), ("timestamp", .str (instantText wall))])

/-- Probes the backend. -/
def serveCacheHealth (api : ManagementApi) : Program Response := do
  let context ← Program.limitedContext requestTimeout
  let report ← api.health.check context
  return jsonResponse (if report.isHealthy then 200 else 503) report.json

/-- Goes on with what was read from a request, or refuses it. -/
def orRefuse {α : Type} (read : Except Response α) (next : α → Program Response) :
    Program Response :=
  match read with
  | .ok value => next value
  | .error refusal => return refusal

/-- Answers a request to an endpoint. -/
def serve (api : ManagementApi) (request : Request) : Endpoint → Program Response
  | .stats => api.serveStats
  | .flush => api.serveFlush
  | .invalidate => orRefuse (readBody InvalidateRequest.reader request) api.serveInvalidate
  | .set => orRefuse (readBody SetRequest.reader request) api.serveSet
  | .get segment => orRefuse (readKey segment) api.serveGet
  | .delete segment => orRefuse (readKey segment) api.serveDelete
  | .health => serveHealth
  | .cacheHealth => api.serveCacheHealth

/-! ### Any request -/

/-- Answers a request by its route and method. -/
def dispatch (api : ManagementApi) (request : Request) : Program Response :=
  match Route.ofPath? request.target.path with
  | none => return emptyResponse 404
  | some route =>
    match route.endpoint? request.method with
    | none => return { emptyResponse 405 with fields := [(utf8 "allow", route.allowed)] }
    | some endpoint => do
      let response ← api.serve request endpoint
      if request.method = utf8 "HEAD" then return { response with body := .whole [] }
      else return response

/-- The field that opens the interface to pages of any origin. -/
def anyOrigin : Bytes × Bytes := (utf8 "access-control-allow-origin", utf8 "*")

/-- The answer to a preflight request: any origin, any method, any header field. -/
def preflight : Response :=
  { emptyResponse 200 with
    fields :=
      [anyOrigin, (utf8 "access-control-allow-methods", utf8 "*"),
        (utf8 "access-control-allow-headers", utf8 "*")] }

/-- Answers any request. -/
def handle (api : ManagementApi) : Handler := fun request => do
  if request.method = utf8 "OPTIONS" then return preflight
  else
    let response ← api.dispatch request
    return { response with fields := anyOrigin :: response.fields }

end ManagementApi

end TimedCache
