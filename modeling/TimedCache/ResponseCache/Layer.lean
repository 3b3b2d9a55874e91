import TimedCache.Engine
import TimedCache.ResponseCache.Fingerprint
import TimedCache.ResponseCache.Policy
import TimedCache.ResponseCache.Snapshot

/-!
# Caching responses

Layers around a handler of requests.  The **response cache** answers a request with the stored
response to an equal request, or else runs the handler and stores what it returns.  Every response is
tagged: `HIT` if it came from the cache, `MISS` if the handler was run.  No failure of the backend
fails a request.

Two more layers belong to it: one **invalidates** what a successful write makes stale, the other
**stamps** every response with a fixed caching policy.

**Timeouts.**  The backend is asked under contexts that end in time.  Where the clock cannot show such
a deadline, the request stops and the client gets nothing.  The invalidation looks at that itself; the
timeout of a response cache is taken to be one that the clock can show.

## Main Definitions

* `ResponseCache.wrap` — the response cache around a handler
* `InvalidateOnWrite.wrap` — invalidation around a handler
* `CacheControl.wrap` — stamping around a handler
* `Layer.stack` — several layers around a handler
-/

namespace TimedCache

open Http

/-- A backend with the policy by which it caches responses. -/
structure ResponseCache where
  backend : Backend
  policy : CachePolicy
  deriving Inhabited

namespace ResponseCache

/-- A response that tells where it came from. -/
def tagged (response : Response) (tag : String) : Response :=
  { response with fields := response.fields.replace cacheTag (utf8 tag) }

/-- The response that stored bytes stand for; anything that cannot be replayed is as good as
absent. -/
def restore? (cache : ResponseCache) (data : Bytes) : Option Response :=
  match Json.decode Snapshot.reader data with
  | .ok snapshot => snapshot.replay? cache.policy.excluded
  | .error _ => none

/-- Looks for a stored response. -/
def lookup (cache : ResponseCache) (key : Bytes) : Program (Option Response) := do
  let context ← Program.limitedContext cache.policy.backendTimeout
  match ← Program.perform cache.backend.id context (.get key) with
  | .ok data => return cache.restore? data
  | .error _ => return none

/-- Stores a response if it qualifies, and hands it on.  A body that breaks off can neither be
stored nor handed on. -/
def store (cache : ResponseCache) (key : Bytes) (response : Response) : Program Response :=
  if response.status ≠ 200 || cache.policy.declaresTooLarge response.fields then return response
  else match response.body with
    | .broken => return ⟨500, [], .whole []⟩
    | .whole body =>
      if cache.policy.admits body then do
        let snapshot := Snapshot.capture response.status response.fields body cache.policy.excluded
        let context ← Program.limitedContext cache.policy.backendTimeout
        let _ ← Program.perform cache.backend.id context
          (.set key snapshot.json.text cache.policy.ttl)
        return response
      else return response

/-- The response cache around a handler. -/
def wrap (cache : ResponseCache) (handler : Handler) : Handler := fun request => do
  if cache.policy.bypasses request then
    let response ← handler request
    return tagged response "MISS"
  else
    let key := Fingerprint.key cache.policy.namespaceText cache.policy.vary request
    match ← cache.lookup key with
    | some response => return tagged response "HIT"
    | none =>
      let response ← handler request
      let response ← cache.store key response
      return tagged response "MISS"

end ResponseCache

/-- A backend with the patterns of keys that a successful write makes stale. -/
structure InvalidateOnWrite where
  backend : Backend
  patterns : List Bytes
  backendTimeout : Duration
  deriving DecidableEq, Repr, Inhabited

namespace InvalidateOnWrite

/-- Invalidates all patterns, whatever becomes of each. -/
def invalidateAll (layer : InvalidateOnWrite) (context : Context) : List Bytes → Program Unit
  | [] => return ()
  | pattern :: patterns => do
    let _ ← Program.perform layer.backend.id context (.invalidate pattern)
    invalidateAll layer context patterns

/-- Invalidation around a handler: after a success all patterns are invalidated, and the response
is handed on as it is.  If the clock cannot show the deadline of the invalidations, the request
stops behind the handler. -/
def wrap (layer : InvalidateOnWrite) (handler : Handler) : Handler := fun request => do
  let response ← handler request
  if isSuccess response.status then
    let context ← Program.limitedContext layer.backendTimeout
    if context.isOnClock then
      layer.invalidateAll context layer.patterns
      return response
    else return .missing
  else return response

end InvalidateOnWrite

/-- A fixed caching policy for responses. -/
structure CacheControl where
  isPublic : Bool
  /-- How long a response may be reused; only whole seconds count. -/
  maxAge : Duration
  deriving DecidableEq, Repr, Inhabited

namespace CacheControl

/-- The policy as the value of a header field.  An age of zero is left out. -/
def text (control : CacheControl) : Bytes :=
  let visibility := if control.isPublic then utf8 "public" else utf8 "private"
  let seconds := control.maxAge.wholeSecs
  if 0 < seconds then visibility ++ utf8 ", max-age=" ++ natText seconds else visibility

/-- Stamping around a handler. -/
def wrap (control : CacheControl) (handler : Handler) : Handler := fun request => do
  let response ← handler request
  return { response with fields := response.fields.replace (utf8 "cache-control") control.text }

end CacheControl

/-- A layer around a handler. -/
inductive Layer where
  | responseCache (cache : ResponseCache)
  | invalidateOnWrite (layer : InvalidateOnWrite)
  | cacheControl (control : CacheControl)
  deriving Inhabited

namespace Layer

/-- A layer around a handler. -/
def wrap : Layer → Handler → Handler
  | responseCache cache => cache.wrap
  | invalidateOnWrite layer => layer.wrap
  | cacheControl control => control.wrap

/-- Several layers around a handler, the first of them outermost. -/
def stack (layers : List Layer) (handler : Handler) : Handler :=
  layers.foldr wrap handler

end Layer

end TimedCache
