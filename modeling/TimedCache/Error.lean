import TimedCache.Json.Reader

/-!
# Failures

What can go wrong between a caller and a cache, as **causes**.  `CacheError.message` words a cause
for people, `CacheError.status` is the HTTP status it is answered with.

**Details.**  A cause comes with what is known about it: the key that is absent, the fault in a
document, the reason that was given.  All of it is part of the wording.

## Main Definitions

* `CacheError` — the causes
* `CacheError.message`, `CacheError.status` — wording and HTTP status
-/

namespace TimedCache

/-- Why a cache operation failed. -/
inductive CacheError where
  /-- The key is absent or expired. -/
  | notFound (key : Bytes)
  /-- The backend cannot be reached, or the round trip to it failed. -/
  | unavailable (detail : Bytes)
  /-- The backend has been closed. -/
  | closed
  /-- The context of the call was cancelled. -/
  | canceled
  /-- The deadline of the context has passed. -/
  | deadlineExceeded
  /-- A value could not be decoded. -/
  | undecodable (fault : Json.Fault)
  /-- Configuration parameters are missing or malformed. -/
  | invalidConfiguration (reason : Bytes)
  /-- The request itself is invalid. -/
  | invalidRequest (reason : Bytes)
  /-- The function that computes a missing value failed. -/
  | computeFailed (reason : Bytes)
  deriving DecidableEq, Repr

namespace CacheError

/-- Whether the failure is a plain miss. -/
def isNotFound : CacheError → Bool
  | notFound _ => true
  | _ => false

/-- The wording of a failure. -/
def message : CacheError → Bytes
  | notFound key => utf8 "Key not found: " ++ key
  | unavailable detail => utf8 "Backend unavailable: " ++ detail
  | closed => utf8 "Cache backend is closed"
  | canceled => utf8 "Operation canceled"
  | deadlineExceeded => utf8 "Operation deadline exceeded"
  | undecodable fault => utf8 "Serialization error: " ++ fault.text
  | invalidConfiguration reason => utf8 "Invalid configuration: " ++ reason
  | invalidRequest reason => utf8 "Invalid request: " ++ reason
  | computeFailed reason => utf8 "Compute failed: " ++ reason

/-- The HTTP status that a failure is answered with. -/
def status : CacheError → Nat
  | notFound _ => 404
  | invalidRequest _ => 400
  | unavailable _ => 503
  | closed => 503
  | canceled => 503
  | deadlineExceeded => 504
  | undecodable _ => 422
  | invalidConfiguration _ => 500
  | computeFailed _ => 500

end CacheError

end TimedCache
