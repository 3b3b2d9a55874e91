import TimedCache.Engine
import TimedCache.Json.Codec
import TimedCache.Program

/-!
# Reading through a cache

The usual way to use a backend: **read, and on a miss compute, store and return**.  Every failure of
the read counts as a miss.  A failure to compute is the failure of the whole.  A failure to store
is of no consequence: the value has been computed and is returned.

There is no coalescing: callers that miss the same key at the same time compute it each, and the
last to store wins.

**Documents.**  A computed value is written once.  These bytes are stored, and they are what the
returned value is read from, so a miss returns what a later hit will.

## Main Definitions

* `ReadThrough` — a backend and the lifetime of documents that name none
* `ReadThrough.getJson`, `ReadThrough.setJson` — documents in a backend
* `ReadThrough.getOrSet`, `ReadThrough.getOrSetJson` — read, or compute and store
-/

namespace TimedCache

/-- A computation that may fail for a reason. -/
abbrev Compute (α : Type) := Program (Except Bytes α)

/-- A backend and the lifetime of documents that name none. -/
structure ReadThrough where
  backend : Backend
  defaultLifetime : Duration
  deriving DecidableEq, Repr, Inhabited

namespace ReadThrough

variable {α : Type}

/-- Reading through a backend with the lifetime that the backend itself would take. -/
def of (backend : Backend) : ReadThrough := ⟨backend, backend.options.defaultLifetime⟩

/-- The lifetime of a document. -/
def lifetime (cache : ReadThrough) (ttl : Duration) : Duration :=
  ttl.orDefault cache.defaultLifetime

/-- The document of a key. -/
def getJson (cache : ReadThrough) (codec : Codec α) (context : Context) (key : Bytes) :
    Program (Except CacheError α) := do
  match ← Program.perform cache.backend.id context (.get key) with
  | .error failure => return .error failure
  | .ok data =>
    match codec.decode data with
    | .ok value => return .ok value
    | .error fault => return .error (.undecodable fault)

/-- Stores a document. -/
def setJson (cache : ReadThrough) (codec : Codec α) (context : Context) (key : Bytes) (value : α)
    (ttl : Duration) : Program (Except CacheError Unit) :=
  Program.perform cache.backend.id context (.set key (codec.encode value) (cache.lifetime ttl))

/-- The value of a key, or else a computed value, which is stored. -/
def getOrSet (cache : ReadThrough) (context : Context) (key : Bytes)
    (compute : Compute (Bytes × Duration)) : Program (Except CacheError Bytes) := do
  match ← Program.perform cache.backend.id context (.get key) with
  | .ok data => return .ok data
  | .error _ =>
    match ← compute with
    | .error reason => return .error (.computeFailed reason)
    | .ok (data, ttl) =>
      let _ ← Program.perform cache.backend.id context (.set key data ttl)
      return .ok data

/-- The document of a key, or else a computed one, which is stored. -/
def getOrSetJson (cache : ReadThrough) (codec : Codec α) (context : Context) (key : Bytes)
    (compute : Compute (α × Duration)) : Program (Except CacheError α) := do
  match ← cache.getJson codec context key with
  | .ok value => return .ok value
  | .error _ =>
    match ← compute with
    | .error reason => return .error (.computeFailed reason)
    | .ok (value, ttl) =>
      let data := codec.encode value
      let _ ← Program.perform cache.backend.id context (.set key data (cache.lifetime ttl))
      match codec.decode data with
      | .ok value => return .ok value
      | .error fault => return .error (.undecodable fault)

end ReadThrough

end TimedCache
