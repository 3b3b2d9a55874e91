import TimedCache.Context
import TimedCache.Glob
import TimedCache.Operation
import TimedCache.Remote.Address
import TimedCache.Remote.Wire

/-!
# Remote backends

A remote backend keeps its entries on a server and itself holds no more than its options, its
ledger, and whether it is open.  Every operation is carried out by commands on the wire.

**Namespaces.**  Keys are filed under the namespace of the backend; a pattern is sent behind the
escaped namespace, so that it selects keys of this backend only.

**Scans.**  A scan starts at cursor zero and goes on with the cursor that came with each batch,
until that is zero again.  The keys of all batches are then deleted in chunks.  The ledger counts
the deletions once all chunks are through.

**Words.**  The removed keys are summed up in a machine word.  No list of keys that fits into memory
makes that wrap around, but a server may report more than it was asked to delete.

## Main Definitions

* `Remote.Client` — a remote backend
* `Remote.Client.perform` — carries an operation out on the wire
* `Remote.connect` — makes a remote backend
-/

namespace TimedCache.Remote

/-- A remote backend. -/
structure Client where
  options : Options
  endpoint : Bytes
  database : Int
  ledger : Ledger
  isOpen : Bool
  deriving Inhabited

/-- How many keys are asked for in one batch of a scan. -/
def scanBatch : Nat := 1000

/-- How many keys are deleted by one command. -/
def deleteChunk : Nat := 500

namespace Client

/-- The pattern that selects, among all keys of the server, those of this backend whose logical
keys match `pattern`. -/
def namespacedPattern (client : Client) (pattern : Bytes) : Bytes :=
  Glob.escape client.options.namespaceText ++ pattern

/-- The lifetime of a write in milliseconds, at least one; none if it never expires. -/
def lifetimeMillis (options : Options) (ttl : Duration) : Option Nat :=
  (options.lifetime ttl).map fun lifetime => Nat.max (lifetime.wholeMillis % word64) 1

/-- The commands and their outcomes of one operation: a failure, or a value with a new ledger. -/
abbrev Outcome (α : Type) := Except CacheError α × Ledger × Wire

/-- Follows a scan to its end and collects the keys of all batches.  Every round takes an
exchange, so `fuel` need not exceed their number by more than one. -/
def scanFrom (pattern : Bytes) : (fuel cursor : Nat) → (keys : List Bytes) → Wire →
    Except CacheError (List Bytes) × Wire
  | 0, _, _, wire => (.error Wire.silence, wire)
  | fuel + 1, cursor, keys, wire =>
    match wire.query Reply.cursorAndKeys? (.scan cursor pattern scanBatch) with
    | (.error failure, wire) => (.error failure, wire)
    | (.ok (next, batch), wire) =>
      if next = 0 then (.ok (keys ++ batch), wire)
      else scanFrom pattern fuel next (keys ++ batch) wire

/-- All keys of the server that a pattern selects. -/
def scan (pattern : Bytes) (wire : Wire) : Except CacheError (List Bytes) × Wire :=
  scanFrom pattern (wire.ahead.length + 1) 0 [] wire

/-- Lists of at most `size` items, of which only the last may be shorter. -/
def chunksOf {α : Type} (size : Nat) : (fuel : Nat) → List α → List (List α)
  | 0, _ => []
  | fuel + 1, items =>
    if items.isEmpty then [] else items.take size :: chunksOf size fuel (items.drop size)

/-- Deletes chunks of keys one after another and sums up how many keys the server says it removed. -/
def deleteChunks : (chunks : List (List Bytes)) → (removed : Nat) → Wire →
    Except CacheError Nat × Wire
  | [], removed, wire => (.ok removed, wire)
  | chunk :: chunks, removed, wire =>
    match wire.query Reply.integer? (.del chunk) with
    | (.error failure, wire) => (.error failure, wire)
    | (.ok count, wire) => deleteChunks chunks (removed + count.toNat) wire

/-- A sum over the deletions of a list of keys, as a machine word holds it: within 64 bits.  A list that
fits into memory is counted by a word, so a sum that does not exceed its length is never cut. -/
def wordSum (keys : List Bytes) (removed : Nat) : Nat := removed % max word64 (keys.length + 1)

/-- What a word can hold is held as it is. -/
theorem wordSum_of_lt {removed : Nat} (fits : removed < word64) (keys : List Bytes) :
    wordSum keys removed = removed :=
  Nat.mod_eq_of_lt (Nat.lt_of_lt_of_le fits (Nat.le_max_left _ _))

/-- A server that removes no key twice is understood. -/
theorem wordSum_of_le {keys : List Bytes} {removed : Nat} (honest : removed ≤ keys.length) :
    wordSum keys removed = removed :=
  Nat.mod_eq_of_lt (Nat.lt_of_lt_of_le (Nat.lt_succ_of_le honest) (Nat.le_max_right _ _))

/-- A sum over the deletions of keys that fit into memory wraps around at 64 bits. -/
theorem wordSum_of_length_lt {keys : List Bytes} (short : keys.length < word64) (removed : Nat) :
    wordSum keys removed = removed % word64 := by
  rw [wordSum, Nat.max_eq_left short]

/-- Deletes all keys that a pattern selects.  Published counts are kept within 64 bits, so the ledger
may take the sum as it is. -/
def removeMatching (client : Client) (pattern : Bytes) (wire : Wire) : Outcome Nat :=
  match scan (client.namespacedPattern pattern) wire with
  | (.error failure, wire) => (.error failure, client.ledger, wire)
  | (.ok keys, wire) =>
    match deleteChunks (chunksOf deleteChunk keys.length keys) 0 wire with
    | (.error failure, wire) => (.error failure, client.ledger, wire)
    | (.ok removed, wire) => (.ok (wordSum keys removed), client.ledger.delete removed, wire)

/-- One command, whose reply is read as the wanted kind of value. -/
def one {α β : Type} (client : Client) (read : Reply → Option α) (command : Command)
    (onReply : α → Except CacheError β × Ledger) (wire : Wire) : Outcome β :=
  match wire.query read command with
  | (.error failure, wire) => (.error failure, client.ledger, wire)
  | (.ok value, wire) =>
    let (result, ledger) := onReply value
    (result, ledger, wire)

/-- A reply of which only the success matters. -/
def success? : Reply → Option Unit
  | .failure _ => none
  | _ => some ()

/-- Sends writes one behind the other; the first failure among the replies is the failure of the
whole. -/
def sendWrites : (commands : List Command) → Wire → Except CacheError Unit × Wire
  | [], wire => (.ok (), wire)
  | command :: commands, wire =>
    match wire.query success? command with
    | (.ok (), wire) => sendWrites commands wire
    | (.error failure, wire) => (.error failure, (sendWrites commands wire).2)

/-- Pairs keys with the values that came back for them, and counts hits and misses. -/
def collect : (keys : List Bytes) → (values : List (Option Bytes)) → Table Bytes → Ledger →
    Table Bytes × Ledger
  | key :: keys, some value :: values, found, ledger =>
    collect keys values (found.insert key value) ledger.hit
  | _ :: keys, none :: values, found, ledger => collect keys values found ledger.miss
  | _, _, found, ledger => (found, ledger)

/-- The write command of a logical key. -/
def writeCommand (options : Options) (key value : Bytes) (onlyIfAbsent : Bool)
    (ttl : Duration) : Command :=
  .set (options.fullKey key) value onlyIfAbsent (lifetimeMillis options ttl)

/-- Carries an operation out on the wire of an open backend. -/
def carryOut (client : Client) (wire : Wire) : (op : Operation) → Outcome op.Value
  | .get key =>
    client.one Reply.optionalBytes? (.get (client.options.fullKey key))
      (fun
        | some value => (.ok value, client.ledger.hit)
        | none => (.error (.notFound key), client.ledger.miss))
      wire
  | .set key value ttl =>
    client.one success? (writeCommand client.options key value false ttl)
      (fun _ => (.ok (), client.ledger.set)) wire
  | .delete key =>
    client.one Reply.integer? (.del [client.options.fullKey key])
      (fun count => (.ok (), client.ledger.delete count.toNat)) wire
  | .has key =>
    client.one Reply.integer? (.has (client.options.fullKey key))
      (fun count => (.ok (decide (0 < count)), client.ledger)) wire
  | .flush =>
    let (result, ledger, wire) := client.removeMatching (utf8 "*") wire
    (result.map fun _ => (), ledger, wire)
  | .invalidate pattern => client.removeMatching pattern wire
  | .close => (.ok (), client.ledger, wire)
  | .stats =>
    match scan (client.namespacedPattern (utf8 "*")) wire with
    | (.error failure, wire) => (.error failure, client.ledger, wire)
    | (.ok keys, wire) =>
      (.ok ⟨.onServer client.endpoint client.database client.options.namespaceText keys.length,
        client.ledger.published⟩, client.ledger, wire)
  | .increment key delta =>
    client.one Reply.integer? (.incrBy (client.options.fullKey key) delta)
      (fun value => (.ok value, client.ledger)) wire
  | .decrement key delta =>
    client.one Reply.integer? (.decrBy (client.options.fullKey key) delta)
      (fun value => (.ok value, client.ledger)) wire
  | .setIfAbsent key value ttl =>
    client.one Reply.optionalText? (writeCommand client.options key value true ttl)
      (fun
        | some _ => (.ok true, client.ledger.set)
        | none => (.ok false, client.ledger))
      wire
  | .getMany keys =>
    client.one Reply.optionalValues? (.mget (keys.map client.options.fullKey))
      (fun values =>
        let (found, ledger) := collect keys values .empty client.ledger
        (.ok found, ledger))
      wire
  | .setMany entries ttl =>
    let commands := entries.pairs.map fun pair =>
      writeCommand client.options pair.1 pair.2 false ttl
    match sendWrites commands wire with
    | (.error failure, wire) => (.error failure, client.ledger, wire)
    | (.ok (), wire) => (.ok (), client.ledger.setMany entries.size, wire)
  | .remaining key =>
    client.one Reply.integer? (.pttl (client.options.fullKey key))
      (fun millis =>
        if millis = -2 then (.error (.notFound key), client.ledger)
        else if millis = -1 then (.ok none, client.ledger)
        else (.ok (some (.ofMillis millis.toNat)), client.ledger))
      wire

/-- The answer to an operation that needs no command, whether the backend is open or not. -/
def withoutCommand? : (op : Operation) → Option op.Value
  | .close => some ()
  | .getMany [] => some .empty
  | .setMany entries _ => if entries.size = 0 then some () else none
  | _ => none

/-- Why a command cannot even be sent. -/
def refusal? (client : Client) (standing : Standing) : Option CacheError :=
  if client.isOpen then standing.failure? else some .closed

/-- Performs an operation under a context of the given standing: the answer, the backend behind
it, and the wire behind it. -/
def perform (client : Client) (standing : Standing) (wire : Wire) (op : Operation) :
    op.Answer × Client × Wire :=
  match withoutCommand? op with
  | some value => (.ok value, if op.isData then client else { client with isOpen := false }, wire)
  | none =>
    match client.refusal? standing with
    | some failure => (.error failure, client, wire)
    | none =>
      let (result, ledger, wire) := client.carryOut wire op
      (result, { client with ledger := ledger }, wire)

end Client

/-! ### Making a remote backend -/

/-- How to reach the server. -/
structure Settings where
  address : Bytes
  password : Option Bytes
  database : Int
  connectTimeout : Duration
  deriving DecidableEq, Repr, Inhabited

/-- What became of the attempt to reach a server. -/
inductive Dial where
  /-- The server greeted the client. -/
  | greeted
  /-- The attempt failed before its time was up. -/
  | failed (detail : Bytes)
  /-- The time for the attempt was up. -/
  | timedOut
  deriving DecidableEq, Repr

/-- The commands that open a connection: credentials if there are any, the database unless it is
the first, and a greeting. -/
def greeting (settings : Settings) (address : Address) : List Command :=
  let given := settings.password.filter fun password => !password.isEmpty
  let password := given.or address.password
  (match password with
    | some password => [.auth address.user password]
    | none => [])
    ++ (if settings.database = 0 then [] else [.select settings.database]) ++ [.ping]

/-- Reads the address of a server; it must be there and be legal. -/
def Settings.locate (settings : Settings) : Except CacheError Address :=
  if settings.address.isBlankText then
    .error (.invalidConfiguration (utf8 "remote backend address is required"))
  else match Address.read? settings.address with
    | some address => .ok address
    | none => .error (.invalidConfiguration Address.unreadable)

/-- Makes a remote backend, given what becomes of the attempt to reach the server. -/
def connect (settings : Settings) (options : Options) (dial : Address → Dial) :
    Except CacheError Client :=
  match settings.locate with
  | .error failure => .error failure
  | .ok address =>
    match dial address with
    | .greeted => .ok ⟨options, settings.address, settings.database, .zero, true⟩
    | .failed detail => .error (.unavailable detail)
    | .timedOut =>
      .error (.unavailable (utf8 "timed out after " ++ settings.connectTimeout.text
        ++ utf8 " connecting to " ++ settings.address))

end TimedCache.Remote
