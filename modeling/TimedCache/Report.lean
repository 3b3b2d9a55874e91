import TimedCache.Json.Basic
import TimedCache.Ledger

/-!
# Reports

What a backend tells about itself: where it keeps its entries, how many there are, and what its
ledger says.

## Main Definitions

* `Report` — the report of a local or a remote backend
* `Report.json` — its document, with the fields in a fixed order
-/

namespace TimedCache

/-- What only one kind of backend can tell. -/
inductive Holdings where
  /-- Entries in the process itself. -/
  | inProcess (entries maxSize : Nat) (namespaceText : Bytes)
  /-- Keys on a server. -/
  | onServer (endpoint : Bytes) (database : Int) (namespaceText : Bytes) (keys : Nat)
  deriving DecidableEq, Repr

/-- What a backend tells about itself. -/
structure Report where
  holdings : Holdings
  ledger : Ledger
  deriving DecidableEq, Repr

namespace Report

/-- The fields that tell the holdings. -/
def holdingsFields : Holdings → List (String × Json)
  | .inProcess entries maxSize namespaceText =>
    [("type", .ofText "local"), ("entries", .nat entries), ("max_size", .nat maxSize),
      ("key_prefix", .str namespaceText)]
  | .onServer endpoint database namespaceText keys =>
    [("type", .ofText "remote"), ("endpoint", .str endpoint), ("database", .int database),
      ("key_prefix", .str namespaceText), ("keys", .nat keys)]

/-- The fields that tell the counts. -/
def ledgerFields (ledger : Ledger) : List (String × Json) :=
  [("hits", .nat ledger.hits), ("misses", .nat ledger.misses), ("sets", .nat ledger.sets),
    ("deletes", .nat ledger.deletes), ("expired", .nat ledger.expired),
    ("hit_rate", .float ledger.hitRate)]

/-- The document of a report: holdings, counts, hit rate. -/
def json (report : Report) : Json :=
  .object (holdingsFields report.holdings ++ ledgerFields report.ledger)

end Report

end TimedCache
