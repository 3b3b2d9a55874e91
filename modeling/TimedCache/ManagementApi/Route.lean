import TimedCache.Http.Message

/-!
# Routes of the management interface

Which paths there are, and which methods each path has.  Fixed paths come before the path of a key,
which is one segment that is not empty.  Wherever a path can be read, `HEAD` is allowed too.

## Main Definitions

* `Route` — the paths
* `Route.ofPath?` — the route of a path
* `Endpoint`, `Route.endpoint?` — what a method does on a route
* `Route.allowed` — the methods of a route
-/

namespace TimedCache

/-- The paths of the management interface. -/
inductive Route where
  | stats
  | flush
  | invalidate
  | set
  /-- A key, as it stands in the path. -/
  | key (segment : Bytes)
  | health
  | cacheHealth
  deriving DecidableEq, Repr

/-- What a method does on a route. -/
inductive Endpoint where
  | stats
  | flush
  | invalidate
  | set
  | get (segment : Bytes)
  | delete (segment : Bytes)
  | health
  | cacheHealth
  deriving DecidableEq, Repr

namespace Route

/-- The route of a path below `/cache/`. -/
def ofSegment? (segment : Bytes) : Option Route :=
  if segment = utf8 "stats" then some stats
  else if segment = utf8 "flush" then some flush
  else if segment = utf8 "invalidate" then some invalidate
  else if segment = utf8 "set" then some set
  else if segment.isEmpty || segment.contains 0x2F then none
  else some (key segment)

/-- The route of a path. -/
def ofPath? (path : Bytes) : Option Route :=
  if path = utf8 "/health" then some health
  else if path = utf8 "/health/cache" then some cacheHealth
  else (Bytes.strip? (utf8 "/cache/") path).bind ofSegment?

/-- Whether a method reads. -/
def isRead (method : Bytes) : Bool := method = utf8 "GET" || method = utf8 "HEAD"

/-- What a method does on a route; none if the route does not have the method. -/
def endpoint? (method : Bytes) : Route → Option Endpoint
  | stats => if isRead method then some .stats else none
  | flush => if method = utf8 "POST" then some .flush else none
  | invalidate => if method = utf8 "POST" then some .invalidate else none
  | set => if method = utf8 "POST" then some .set else none
  | key segment =>
    if isRead method then some (.get segment)
    else if method = utf8 "DELETE" then some (.delete segment)
    else none
  | health => if isRead method then some .health else none
  | cacheHealth => if isRead method then some .cacheHealth else none

/-- The methods of a route. -/
def allowed : Route → Bytes
  | flush | invalidate | set => utf8 "POST"
  | key _ => utf8 "GET,HEAD,DELETE"
  | stats | health | cacheHealth => utf8 "GET,HEAD"

end Route

end TimedCache
