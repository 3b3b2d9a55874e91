import TimedCache.Calendar
import TimedCache.Engine
import TimedCache.Program

/-!
# Health probes

A probe writes a **sentinel** under a key of its own, reads it back and deletes it.  Its key is made
of the wall clock and a sequence number, and the sentinel lives for a second, so a probe that is
cut short cleans itself up.  Failures are reported, never raised.

## Main Definitions

* `HealthChecker` — a backend and the counter of sequence numbers
* `HealthChecker.check` — runs a probe
* `HealthReport` — the outcome of a probe
-/

namespace TimedCache

/-- The outcome of a probe: its failure, if any, and the wall clock at its end. -/
structure HealthReport where
  failure : Option CacheError
  checkedAt : Nat
  deriving DecidableEq, Repr

namespace HealthReport

/-- Whether the backend passed. -/
def isHealthy (report : HealthReport) : Bool := report.failure.isNone

/-- The document of a report. -/
def json (report : HealthReport) : Json :=
  .object
    ([("healthy", .bool report.isHealthy)]
      ++ (match report.failure with
        | some failure => [("error", .str failure.message)]
        | none => [])
      ++ [("checked_at", .str (instantText report.checkedAt))])

end HealthReport

/-- A backend and the shared counter from which its probes draw their sequence numbers. -/
structure HealthChecker where
  backend : Backend
  counter : Nat
  deriving DecidableEq, Repr, Inhabited

namespace HealthChecker

/-- The lifetime of a sentinel. -/
def sentinelLifetime : Duration := .ofSecs 1

/-- The key of a probe. -/
def probeKey (wall sequenceNumber : Nat) : Bytes :=
  utf8 "health_check:" ++ natText wall ++ utf8 ":" ++ natText sequenceNumber

/-- The value that a probe writes. -/
def sentinel (sequenceNumber : Nat) : Bytes :=
  utf8 "ok:" ++ natText sequenceNumber

/-- Writes, reads and deletes a sentinel. -/
def probe (checker : HealthChecker) (context : Context) : Program (Except CacheError Unit) := do
  let number ← Program.ticket checker.counter
  let wall ← Program.wallClock
  let key := probeKey wall number
  match ← Program.perform checker.backend.id context
      (.set key (sentinel number) sentinelLifetime) with
  | .error failure => return .error failure
  | .ok () =>
    match ← Program.perform checker.backend.id context (.get key) with
    | .error failure => return .error failure
    | .ok found =>
      if found = sentinel number then Program.perform checker.backend.id context (.delete key)
      else return .error (.unavailable (utf8 "health probe read back a different value"))

/-- Runs a probe and reports its outcome. -/
def check (checker : HealthChecker) (context : Context) : Program HealthReport := do
  let result ← checker.probe context
  let wall ← Program.wallClock
  match result with
  | .ok () => return ⟨none, wall⟩
  | .error failure => return ⟨some failure, wall⟩

end HealthChecker

end TimedCache
