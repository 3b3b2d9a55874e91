import TimedCache.Http.Message
import TimedCache.Text.Blank
import TimedCache.Text.Decimal

/-!
# Policies of the response cache

Which requests may be answered from the cache, and which responses may be stored.

**Bypassing.**  A request bypasses the cache if its method is not eligible, if it carries
credentials, if it demands `no-cache` or `no-store`, or if the policy exempts it by a rule of its
own.

**Size.**  A response is not stored if it declares a body that is larger than the policy allows.

## Main Definitions

* `CachePolicy` — the policy
* `CachePolicy.bypasses` — whether a request bypasses the cache
* `CachePolicy.declaresTooLarge` — whether a response declares too large a body
-/

namespace TimedCache

open Http

/-- Which requests are answered from the cache, and which responses are stored. -/
structure CachePolicy where
  /-- The lifetime of stored responses. -/
  ttl : Duration
  /-- What stands in front of every fingerprint. -/
  namespaceText : Bytes
  /-- The methods that are eligible. -/
  methods : List Bytes
  /-- The header fields of a request that count. -/
  vary : List Bytes
  /-- The header fields of a response that are neither stored nor replayed. -/
  excluded : List Bytes
  maxBody : Nat
  /-- The time that one operation of the backend may take.  The clock can show its end. -/
  backendTimeout : Duration
  /-- Which further requests bypass the cache. -/
  exempt : Request → Bool
  deriving Inhabited

namespace CachePolicy

/-- The policy unless another one is asked for. -/
def standard : CachePolicy where
  ttl := .ofSecs 300
  namespaceText := utf8 "http:"
  methods := [utf8 "GET"]
  vary := [utf8 "accept", utf8 "accept-language", utf8 "user-agent"]
  excluded := [utf8 "set-cookie", utf8 "cookie", utf8 "authorization"]
  maxBody := 1048576
  backendTimeout := .ofSecs 1
  exempt := fun _ => false

/-- The directives of the values that are text. -/
def directives (fields : Fields) : List Bytes :=
  ((fields.values (utf8 "cache-control")).filter isVisible).flatMap fun value =>
    (value.splitOn 0x2C).map fun directive => directive.trim.lower

/-- Whether a request demands a fresh response. -/
def demandsFresh (fields : Fields) : Bool :=
  (directives fields).any fun directive =>
    directive = utf8 "no-cache" || directive = utf8 "no-store"

/-- Whether a request bypasses the cache. -/
def bypasses (policy : CachePolicy) (request : Request) : Bool :=
  !policy.methods.contains request.method
    || request.fields.contains (utf8 "authorization")
    || demandsFresh request.fields
    || policy.exempt request

/-- Whether a response declares too large a body. -/
def declaresTooLarge (policy : CachePolicy) (fields : Fields) : Bool :=
  match (fields.firstText? (utf8 "content-length")).bind (readNat? word64) with
  | some length => policy.maxBody < length
  | none => false

/-- Whether a body may be stored. -/
def admits (policy : CachePolicy) (body : Bytes) : Bool :=
  !body.isEmpty && body.length ≤ policy.maxBody

end CachePolicy

end TimedCache
