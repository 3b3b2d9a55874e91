import Mathlib
import TimedCache.Proofs.Remote.Server

/-!
# Operations as dialogues

What a remote backend does for one operation is a dialogue with the server: of a single step where
one command is enough (`Client.dialogue_one`), and of a scan and the deletions after it where keys
are removed by a pattern (`Client.dialogue_removeMatching`).

**Replies.**  The replies of the server are of the kind that each command calls for, so no exchange
fails.  Numbers have to fit into signed 64-bit words, which is why expiries stay below `2 ^ 63`.
-/

namespace TimedCache.Remote

/-! ### Replies of the server -/

theorem optionalBytes?_valueReply (found : Option Cell) :
    (Server.valueReply found).optionalBytes? = some (found.map Cell.value) := by
  cases found <;> rfl

theorem optionalValues?_valueReplies (keys : List Bytes) (found : Bytes → Option Cell) :
    (Reply.array (keys.map fun key => Server.valueReply (found key))).optionalValues? =
      some (keys.map fun key => (found key).map Cell.value) := by
  show (keys.map fun key => Server.valueReply (found key)).mapM Reply.optionalBytes? = _
  induction keys with
  | nil => rfl
  | cons key keys ih =>
      rw [List.map_cons, List.mapM_cons, optionalBytes?_valueReply, ih]
      rfl

/-- Zero and one fit. -/
theorem integer?_indicator (there : Bool) :
    (Reply.int (if there then 1 else 0)).integer? = some (if there then 1 else 0) := by
  cases there <;> rfl

/-- What is left of a lifetime that ends below `2 ^ 63` is read as it was sent. -/
theorem integer?_millisLeft (now : Nat) {found : Option Cell}
    (soon : ∀ cell, found = some cell →
      ∀ expires, cell.expiresAt = some expires → expires < 2 ^ 63) :
    (Reply.int (Server.millisLeft now found)).integer? = some (Server.millisLeft now found) := by
  refine Reply.integer?_int ?_
  match found with
  | none => rfl
  | some ⟨_, none⟩ => rfl
  | some ⟨value, some expires⟩ =>
      have bound := soon _ rfl expires rfl
      show fitsInt64 ((expires - now : Nat) : Int) = true
      unfold fitsInt64
      rw [Bool.and_eq_true, decide_eq_true_eq, decide_eq_true_eq]
      omega

/-- The values that came back are paired with their keys, the last one of each key counting. -/
theorem Client.collect_fst (keys : List Bytes) (seen : Bytes → Option Cell) (found : Table Bytes)
    (ledger : Ledger) :
    (collect keys (keys.map fun key => (seen key).map Cell.value) found ledger).1 =
      (keys.filterMap fun key => (seen key).map fun cell => (key, cell.value)).foldl
        (fun table pair => table.insert pair.1 pair.2) found := by
  induction keys generalizing found ledger with
  | nil => rfl
  | cons key keys ih =>
      rw [List.map_cons, List.filterMap_cons]
      cases seen key with
      | none => exact ih found ledger.miss
      | some cell => exact ih (found.insert key cell.value) ledger.hit

/-! ### Outcomes -/

namespace Client

variable {α β σ : Type}

/-- The outcome of an operation as the result of a party. -/
def packed (outcome : Wire → Outcome α) : Party (Except CacheError α × Ledger) := fun wire =>
  (((outcome wire).1, (outcome wire).2.1), (outcome wire).2.2)

/-- What an operation makes of the end of its exchanges.  A failure leaves the ledger as it was. -/
def settle (client : Client) (onValue : α → Except CacheError β × Ledger) :
    Except CacheError α → Except CacheError β × Ledger
  | .error failure => (.error failure, client.ledger)
  | .ok value => onValue value

/-- What the reply to a question for the rest of a lifetime leads to. -/
def leftOn (client : Client) (key : Bytes) (millis : Int) :
    Except CacheError (Option Duration) × Ledger :=
  if millis = -2 then (.error (.notFound key), client.ledger)
  else if millis = -1 then (.ok none, client.ledger)
  else (.ok (some (.ofMillis millis.toNat)), client.ledger)

theorem leftOn_millisLeft (client : Client) (key : Bytes) (now : Nat) (found : Option Cell) :
    (client.leftOn key (Server.millisLeft now found)).1 =
      found.elim (.error (.notFound key)) fun cell => .ok (cell.remaining now) := by
  match found with
  | none => rfl
  | some ⟨_, none⟩ => rfl
  | some ⟨value, some expires⟩ =>
      have left : 0 ≤ Server.millisLeft now (some ⟨value, some expires⟩) :=
        Int.natCast_nonneg (expires - now)
      rw [leftOn, if_neg (by omega), if_neg (by omega)]
      rfl

theorem packed_one (client : Client) (read : Reply → Option α) (command : Command)
    (onReply : α → Except CacheError β × Ledger) :
    packed (client.one read command onReply) =
      Party.map (client.settle onReply) (Wire.query read command) := by
  funext wire
  unfold packed one Party.map
  cases wire.query read command with
  | mk said wire' => cases said <;> rfl

/-- A single command is a dialogue of one step. -/
theorem dialogue_one (client : Client) {respond : Responder σ} {before : σ}
    {read : Reply → Option α} {command : Command} {value : α}
    (reads : read (respond command before).1 = some value)
    (onReply : α → Except CacheError β × Ledger) :
    Dialogue respond (packed (client.one read command onReply)) before (onReply value)
      (respond command before).2 := by
  rw [packed_one]
  exact (Dialogue.query reads).map (client.settle onReply)

theorem packed_setMany (client : Client) (entries : Table Bytes) (ttl : Duration) :
    packed (fun wire => client.carryOut wire (.setMany entries ttl)) =
      Party.map (client.settle fun _ => (.ok (), client.ledger.setMany entries.size))
        (sendWrites (entries.pairs.map fun pair =>
          writeCommand client.options pair.1 pair.2 false ttl)) := by
  let commands := entries.pairs.map fun pair =>
    writeCommand client.options pair.1 pair.2 false ttl
  funext wire
  unfold packed carryOut Party.map
  dsimp only
  cases sendWrites commands wire with
  | mk said wire' => cases said <;> rfl

/-- A pipeline of writes that goes through is counted at its end. -/
theorem dialogue_setMany (client : Client) {entries : Table Bytes} {ttl : Duration}
    {respond : Responder σ} {before after : σ}
    (writes : Dialogue respond (sendWrites (entries.pairs.map fun pair =>
      writeCommand client.options pair.1 pair.2 false ttl)) before (.ok ()) after) :
    Dialogue respond (packed fun wire => client.carryOut wire (.setMany entries ttl)) before
      (.ok (), client.ledger.setMany entries.size) after := by
  rw [packed_setMany]
  exact writes.map (client.settle fun _ => (.ok (), client.ledger.setMany entries.size))

/-- A remote backend at work on a wire. -/
def party (client : Client) (standing : Standing) (op : Operation) : Party (op.Answer × Client) :=
  fun wire =>
    let (answer, client, wire) := client.perform standing wire op
    ((answer, client), wire)

/-- What needs a command, and may be sent, is carried out. -/
theorem party_eq {client : Client} {standing : Standing} {op : Operation}
    (needed : withoutCommand? op = none) (admitted : client.refusal? standing = none) :
    client.party standing op =
      Party.map (fun outcome => (outcome.1, { client with ledger := outcome.2 }))
        (packed fun wire => client.carryOut wire op) := by
  funext wire
  unfold party perform
  rw [needed, admitted]
  rfl

/-- An open remote backend carries out what needs a command. -/
theorem dialogue_party {client : Client} (isOpen : client.isOpen = true) {op : Operation}
    (needed : withoutCommand? op = none) {respond : Responder σ} {before after : σ}
    {answer : op.Answer} {ledger : Ledger}
    (dialogue : Dialogue respond (packed fun wire => client.carryOut wire op) before
      (answer, ledger) after) :
    Dialogue respond (client.party .live op) before (answer, { client with ledger }) after := by
  have admitted : client.refusal? .live = none := by
    rw [refusal?, isOpen]
    rfl
  rw [party_eq needed admitted]
  exact dialogue.map fun outcome => (outcome.1, { client with ledger := outcome.2 })

/-- What is done with the keys of a scan. -/
def scannedOn (client : Client) :
    Except CacheError (List Bytes) → Party (Except CacheError Nat × Ledger)
  | .error failure => fun wire => ((.error failure, client.ledger), wire)
  | .ok keys => Party.map
    (client.settle fun removed => (.ok (wordSum keys removed), client.ledger.delete removed))
    (deleteChunks (chunksOf deleteChunk keys.length keys) 0)

theorem scannedOn_grows (client : Client) (said : Except CacheError (List Bytes)) :
    (client.scannedOn said).Grows := by
  cases said with
  | error failure =>
      intro wire
      exact List.prefix_refl wire.sent
  | ok keys => exact deleteChunks_grows _ 0

theorem packed_removeMatching (client : Client) (pattern : Bytes) :
    packed (client.removeMatching pattern) =
      Party.andThen (scan (client.namespacedPattern pattern)) client.scannedOn := by
  funext wire
  unfold packed removeMatching Party.andThen
  cases scan (client.namespacedPattern pattern) wire with
  | mk said wire' =>
      cases said with
      | error failure => rfl
      | ok keys =>
          dsimp only [scannedOn, Party.map]
          cases deleteChunks (chunksOf deleteChunk keys.length keys) 0 wire' with
          | mk said wire'' => cases said <;> rfl

/-- **Removing by a pattern.**  What the pattern selects is removed, each key once however often the
scan repeats it. -/
theorem dialogue_removeMatching (client : Client) {plan : ScanPlan} (complete : plan.Complete)
    (now : Nat) (pattern : Bytes) {server : Server}
    (texts : ∀ key ∈ server.select now (client.namespacedPattern pattern), key.isText = true) :
    ∃ keys after, after.cells = (server.cells.removePresent now keys).2 ∧
      (∀ key, key ∈ keys ↔ key ∈ server.select now (client.namespacedPattern pattern)) ∧
      Dialogue (Server.answer plan now) (packed (client.removeMatching pattern)) server
        (.ok (server.cells.removePresent now keys).1,
          client.ledger.delete (server.cells.removePresent now keys).1) after := by
  obtain ⟨keys, scanned, cells, members, scan⟩ :=
    dialogue_scan plan now complete (client.namespacedPattern pattern) texts
  have positive : 0 < deleteChunk := by decide
  obtain ⟨flat, short⟩ := chunksOf_eq positive (Nat.le_refl keys.length)
  have delete := dialogue_deleteChunks plan now short 0 scanned
  rw [flat, cells, Nat.zero_add] at delete
  have deleted := delete.map
    (client.settle fun removed => (.ok (wordSum keys removed), client.ledger.delete removed))
  rw [settle, wordSum_of_le (server.cells.removePresent_fst_le now keys)] at deleted
  refine ⟨keys, { scanned with cells := (server.cells.removePresent now keys).2 }, rfl, members, ?_⟩
  rw [packed_removeMatching]
  exact scan.andThen client.scannedOn_grows deleted

end Client

end TimedCache.Remote
