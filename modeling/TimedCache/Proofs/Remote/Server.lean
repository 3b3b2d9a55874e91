import TimedCache.Proofs.Remote.Conversation
import TimedCache.Proofs.Table
import TimedCache.Proofs.Text.Decimal
import TimedCache.Proofs.TtlMap

/-!
# A server

The server that a remote backend speaks to: a finite map from full keys to cells, in which a key is
present while the clock is below the expiry of its cell.

**Scans.**  The server deals out the keys that a pattern selects in as many batches as it likes,
with cursors that it makes up, and may repeat keys.  What it chooses is its *plan*; all that is
asked of a plan is that every selected key is dealt, nothing else is, and the cursors between the
batches are nonzero words (`ScanPlan.Complete`).

**What the client makes of it.**  A scan collects what it is dealt, as far as that can be read
(`Client.dialogue_collectFrom`); if the plan is complete, these keys have the same members as the
selection (`Client.dialogue_scan`).  Deleting keys in chunks is deleting them one after another
(`Client.dialogue_deleteChunks`).

## Main Definitions

* `Iteration`, `ScanPlan` — how the keys of a scan are dealt out
* `Iteration.collected` — what a client makes of the batches of a scan
* `Server` — the state of a server
* `Server.answer` — the reply to a command, and the state behind it
-/

namespace TimedCache

/-! ### Removing keys one after another -/

namespace Table

/-- Removes keys one after another, and counts those that were present. -/
def removePresent (now : Nat) : (keys : List Bytes) → Table Cell → Nat × Table Cell
  | [], cells => (0, cells)
  | key :: keys, cells =>
    let (removed, rest) := removePresent now keys (cells.erase key)
    ((if (cells.present? now key).isSome then 1 else 0) + removed, rest)

variable (now : Nat)

theorem removePresent_append (keys others : List Bytes) (cells : Table Cell) :
    cells.removePresent now (keys ++ others) =
      ((cells.removePresent now keys).1 +
          ((cells.removePresent now keys).2.removePresent now others).1,
        ((cells.removePresent now keys).2.removePresent now others).2) := by
  induction keys generalizing cells with
  | nil =>
      show cells.removePresent now others = (0 + (cells.removePresent now others).1, _)
      rw [Nat.zero_add]
      rfl
  | cons key keys ih =>
      rw [List.cons_append, removePresent, removePresent, ih, Nat.add_assoc]

/-- The keys are gone, and no other key is. -/
theorem find?_removePresent (keys : List Bytes) (cells : Table Cell) (key : Bytes) :
    (cells.removePresent now keys).2.find? key = if key ∈ keys then none else cells.find? key := by
  induction keys generalizing cells with
  | nil => rfl
  | cons first keys ih =>
      rw [removePresent]
      dsimp only
      rw [ih, find?_erase]
      by_cases same : key = first
      · rw [if_pos same, if_pos (List.mem_cons.mpr (.inl same)), ite_self]
      · rw [if_neg same]
        simp only [List.mem_cons, same, false_or]

theorem present?_removePresent (keys : List Bytes) (cells : Table Cell) (key : Bytes) :
    (cells.removePresent now keys).2.present? now key =
      if key ∈ keys then none else cells.present? now key := by
  rw [present?, find?_removePresent]
  split <;> rfl

theorem removePresent_fst_le (keys : List Bytes) (cells : Table Cell) :
    (cells.removePresent now keys).1 ≤ keys.length := by
  induction keys generalizing cells with
  | nil => exact Nat.le_refl 0
  | cons key keys ih =>
      have rest := ih (cells.erase key)
      rw [removePresent, List.length_cons]
      dsimp only
      split <;> omega

/-- Removed and counted are the present keys among the given ones, each of them once. -/
theorem removePresent_fst (keys : List Bytes) (cells : Table Cell) :
    (cells.removePresent now keys).1 = cells.presentCount now fun key => decide (key ∈ keys) := by
  induction keys generalizing cells with
  | nil =>
      have none : (cells.pairs.filter fun pair =>
          pair.2.isPresent now && decide (pair.1 ∈ ([] : List Bytes))) = [] :=
        List.filter_eq_nil_iff.mpr fun pair _ => by simp
      exact (congrArg List.length none).symm
  | cons first keys ih =>
      rw [removePresent]
      dsimp only
      -- The first key is counted for itself, and what is left to count is not the first key.
      rw [ih, presentCount, presentCount,
        size_filter_add cells _ fun key _ => decide (key = first), size_filter_key,
        size_filter_erase]
      congr 1
      · rw [present?]
        simp only [List.mem_cons_self, decide_true, Bool.and_true]
      · refine congrArg (fun select => (cells.filter select).size) (funext fun key => ?_)
        funext cell
        by_cases same : key = first
        · simp [same]
        · simp [same]

/-- What is left after a removal is what other keys hold. -/
theorem removePresent_snd (now : Nat) (keys : List Bytes) (cells : Table Cell) :
    (cells.removePresent now keys).2 = cells.filter fun key _ => decide (key ∉ keys) := by
  induction keys generalizing cells with
  | nil => exact (filter_true cells).symm.trans (filter_congr fun _ _ => by simp)
  | cons first keys ih =>
      rw [removePresent]
      dsimp only
      rw [ih, erase, filter_filter]
      refine filter_congr fun pair _ => ?_
      simp only [List.mem_cons, not_or, Bool.decide_and, ne_eq]

/-- **A removal depends on which keys are named**, and not on how often or in which order. -/
theorem removePresent_congr (now : Nat) {keys others : List Bytes}
    (same : ∀ key, key ∈ keys ↔ key ∈ others) (cells : Table Cell) :
    cells.removePresent now keys = cells.removePresent now others := by
  refine Prod.ext ?_ ?_
  · rw [removePresent_fst, removePresent_fst]
    simp only [same]
  · rw [removePresent_snd, removePresent_snd]
    simp only [same]

end Table

namespace Remote

/-- An integer that fits is read as it was sent. -/
theorem Reply.integer?_int {value : Int} (fits : fitsInt64 value = true) :
    (Reply.int value).integer? = some value :=
  if_pos fits

/-! ### Scans -/

/-- How the keys of one scan are dealt out: batches with the cursors that the scan goes on from, and
a last batch. -/
structure Iteration where
  earlier : List (Nat × List Bytes)
  last : List Bytes

/-- The keys of all batches. -/
def Iteration.keys (iteration : Iteration) : List Bytes :=
  iteration.earlier.flatMap Prod.snd ++ iteration.last

theorem Iteration.keys_cons (cursor : Nat) (batch : List Bytes)
    (earlier : List (Nat × List Bytes)) (last : List Bytes) :
    keys ⟨(cursor, batch) :: earlier, last⟩ = batch ++ keys ⟨earlier, last⟩ := by
  rw [keys, List.flatMap_cons, List.append_assoc]
  rfl

/-- How a server deals out the keys of each of its scans. -/
abbrev ScanPlan := (scan : Nat) → (keys : List Bytes) → Iteration

/-- Every key is dealt out, possibly more than once, and nothing else is; the cursors to go on from
are nonzero words. -/
structure ScanPlan.Complete (plan : ScanPlan) : Prop where
  mem_keys_iff : ∀ scan keys key, key ∈ (plan scan keys).keys ↔ key ∈ keys
  cursors : ∀ scan keys, ∀ batch ∈ (plan scan keys).earlier, batch.1 ≠ 0 ∧ batch.1 < word64

/-- A batch that is read as it was sent. -/
def Legible (cursor : Nat) (batch : List Bytes) : Prop :=
  cursor < word64 ∧ ∀ key ∈ batch, key.isText = true

instance (cursor : Nat) (batch : List Bytes) : Decidable (Legible cursor batch) :=
  inferInstanceAs (Decidable (_ ∧ _))

/-- What a client has collected behind its rounds: the keys of all batches up to the first one that
comes with cursor zero, or a failure if it cannot read one of them. -/
def collectFrom (last : List Bytes) :
    (keys : List Bytes) → (earlier : List (Nat × List Bytes)) → Except CacheError (List Bytes)
  | keys, [] => if Legible 0 last then .ok (keys ++ last) else .error Wire.badReply
  | keys, (cursor, batch) :: earlier =>
    if Legible cursor batch then
      if cursor = 0 then .ok (keys ++ batch) else collectFrom last (keys ++ batch) earlier
    else .error Wire.badReply

/-- What a client makes of the batches of a scan. -/
def Iteration.collected (iteration : Iteration) : Except CacheError (List Bytes) :=
  collectFrom iteration.last [] iteration.earlier

/-- Batches of texts, with cursors to go on from, are collected to the last. -/
theorem collectFrom_of_legible {last : List Bytes} {earlier : List (Nat × List Bytes)}
    (texts : ∀ key ∈ Iteration.keys ⟨earlier, last⟩, key.isText = true)
    (cursors : ∀ batch ∈ earlier, batch.1 ≠ 0 ∧ batch.1 < word64) (keys : List Bytes) :
    collectFrom last keys earlier = .ok (keys ++ Iteration.keys ⟨earlier, last⟩) := by
  induction earlier generalizing keys with
  | nil => exact if_pos ⟨by decide, texts⟩
  | cons batch earlier ih =>
      obtain ⟨cursor, batch⟩ := batch
      rw [List.forall_mem_cons] at cursors
      obtain ⟨⟨goesOn, word⟩, cursors⟩ := cursors
      rw [Iteration.keys_cons, List.forall_mem_append] at texts
      rw [collectFrom, if_pos ⟨word, texts.1⟩, if_neg goesOn, ih texts.2 cursors, Iteration.keys_cons,
        List.append_assoc]

/-- What a complete plan deals out is collected to the last key. -/
theorem ScanPlan.Complete.collected_eq {plan : ScanPlan} (complete : plan.Complete) (scan : Nat)
    {keys : List Bytes} (texts : ∀ key ∈ keys, key.isText = true) :
    (plan scan keys).collected = .ok (plan scan keys).keys :=
  collectFrom_of_legible (fun key mem => texts key ((complete.mem_keys_iff scan keys key).mp mem))
    (complete.cursors scan keys) []

/-! ### The server -/

/-- A server: its cells by full key, the number of scans that have begun, and what is ahead of the
scan under way with the cursor that it goes on from. -/
structure Server where
  cells : Table Cell
  scans : Nat
  cursor : Nat
  ahead : Iteration

namespace Server

/-- A server without cells. -/
def fresh : Server := ⟨.empty, 0, 0, ⟨[], []⟩⟩

/-- The present keys that a pattern selects. -/
def select (server : Server) (now : Nat) (pattern : Bytes) : List Bytes :=
  (server.cells.filter fun key cell => cell.isPresent now && Glob.accepts pattern key).keys

/-- A batch of keys, with the cursor that the scan goes on from. -/
def batchReply (cursor : Nat) (batch : List Bytes) : Reply :=
  .array [.bulk (natText cursor), .array (batch.map .bulk)]

/-- Deals out the next batch. -/
def deal (server : Server) : Iteration → Reply × Server
  | ⟨[], last⟩ => (batchReply 0 last, { server with cursor := 0 })
  | ⟨(cursor, batch) :: earlier, last⟩ =>
    (batchReply cursor batch, { server with cursor, ahead := ⟨earlier, last⟩ })

/-- A value, or nothing. -/
def valueReply : Option Cell → Reply
  | some cell => .bulk cell.value
  | none => .nil

/-- How many milliseconds a cell has left; `-1` if it never expires, and `-2` if there is none. -/
def millisLeft (now : Nat) : Option Cell → Int
  | none => -2
  | some ⟨_, none⟩ => -1
  | some ⟨_, some expires⟩ => ((expires - now : Nat) : Int)

/-- The reply to a command, and the server behind it. -/
def answer (plan : ScanPlan) (now : Nat) : Responder Server
  | .get key, server => (valueReply (server.cells.present? now key), server)
  | .set key value onlyIfAbsent millis, server =>
    if onlyIfAbsent && (server.cells.present? now key).isSome then (.nil, server)
    else
      (.status (utf8 "OK"),
        { server with cells := server.cells.insert key ⟨value, millis.map (now + ·)⟩ })
  | .del keys, server =>
    (.int (server.cells.removePresent now keys).1,
      { server with cells := (server.cells.removePresent now keys).2 })
  | .has key, server => (.int (if (server.cells.present? now key).isSome then 1 else 0), server)
  | .mget keys, server =>
    (.array (keys.map fun key => valueReply (server.cells.present? now key)), server)
  | .pttl key, server => (.int (millisLeft now (server.cells.present? now key)), server)
  | .scan cursor pattern _, server =>
    if cursor = 0 then
      { server with scans := server.scans + 1 }.deal (plan server.scans (server.select now pattern))
    else if cursor = server.cursor then server.deal server.ahead
    else (batchReply 0 [], server)
  | _, server => (.failure (utf8 "ERR unknown command"), server)

/-- A batch is read as it was sent, if its keys are texts. -/
theorem cursorAndKeys?_batchReply {cursor : Nat} (word : cursor < word64) {batch : List Bytes}
    (texts : ∀ key ∈ batch, key.isText = true) :
    (batchReply cursor batch).cursorAndKeys? = some (cursor, batch) := by
  have keys : (batch.map Reply.bulk).mapM Reply.text? = some batch := by
    induction batch with
    | nil => rfl
    | cons key batch ih =>
        rw [List.forall_mem_cons] at texts
        have first : (Reply.bulk key).text? = some key := if_pos texts.1
        rw [List.map_cons, List.mapM_cons, first, ih texts.2]
        rfl
  have number : (Reply.bulk (natText cursor)).natural? = some cursor := readNat?_natText word
  unfold batchReply Reply.cursorAndKeys?
  dsimp only [Reply.items?, Option.bind_some]
  rw [number, keys]

/-- Keys that are not all texts are not read. -/
theorem mapM_text?_of_not_texts {batch : List Bytes} (other : ¬∀ key ∈ batch, key.isText = true) :
    (batch.map Reply.bulk).mapM Reply.text? = none := by
  induction batch with
  | nil => exact absurd (List.forall_mem_nil _) other
  | cons key batch ih =>
      rw [List.map_cons, List.mapM_cons]
      by_cases text : key.isText = true
      · have rest := ih fun texts => other (List.forall_mem_cons.mpr ⟨text, texts⟩)
        rw [rest]
        cases (Reply.bulk key).text? <;> rfl
      · have first : (Reply.bulk key).text? = none := if_neg text
        rw [first]
        rfl

/-- A batch with a cursor that is no word, or with a key that is no text, cannot be read. -/
theorem cursorAndKeys?_of_not_legible {cursor : Nat} {batch : List Bytes}
    (other : ¬Legible cursor batch) : (batchReply cursor batch).cursorAndKeys? = none := by
  unfold batchReply Reply.cursorAndKeys?
  dsimp only [Reply.items?, Option.bind_some]
  by_cases word : cursor < word64
  · rw [mapM_text?_of_not_texts fun texts => other ⟨word, texts⟩]
    cases (Reply.bulk (natText cursor)).natural? <;> rfl
  · have unread : (Reply.bulk (natText cursor)).natural? = none :=
      readNat?_natText_of_le (Nat.not_lt.mp word)
    rw [unread]

theorem deal_cells (server : Server) (iteration : Iteration) :
    (server.deal iteration).2.cells = server.cells := by
  obtain ⟨earlier, last⟩ := iteration
  cases earlier <;> rfl

/-- The count of removed keys is read as it was sent, for no more keys than make a chunk. -/
theorem integer?_del (plan : ScanPlan) (now : Nat) {keys : List Bytes}
    (short : keys.length ≤ deleteChunk) (server : Server) :
    (answer plan now (.del keys) server).1.integer? =
      some ((server.cells.removePresent now keys).1 : Int) := by
  have count := server.cells.removePresent_fst_le now keys
  have bound : deleteChunk = 500 := rfl
  refine Reply.integer?_int ?_
  unfold fitsInt64
  rw [Bool.and_eq_true, decide_eq_true_eq, decide_eq_true_eq]
  omega

end Server

/-! ### Loops over the server -/

namespace Client

variable (plan : ScanPlan) (now : Nat)

/-- The reply to a command that is dealt a batch, if the batch is legible. -/
theorem dialogue_dealt (server : Server) {command : Command} {next : Nat} {batch : List Bytes}
    (dealt : (Server.answer plan now command server).1 = Server.batchReply next batch) :
    Dialogue (Server.answer plan now) (Wire.query Reply.cursorAndKeys? command) server
      (if Legible next batch then .ok (next, batch) else .error Wire.badReply)
      (Server.answer plan now command server).2 := by
  by_cases legible : Legible next batch
  · rw [if_pos legible]
    refine Dialogue.query ?_
    rw [dealt]
    exact Server.cursorAndKeys?_batchReply legible.1 legible.2
  · rw [if_neg legible]
    refine Dialogue.query_unread ?_
    rw [dealt]
    exact Server.cursorAndKeys?_of_not_legible legible

/-- **A scan collects what it is dealt**, whatever that is, and changes no cell. -/
theorem dialogue_collectFrom (pattern : Bytes) (last : List Bytes) (earlier : List (Nat × List Bytes))
    (cursor : Nat) (keys : List Bytes) {server base : Server} (same : base.cells = server.cells)
    (served : Server.answer plan now (.scan cursor pattern scanBatch) server =
      base.deal ⟨earlier, last⟩) :
    ∃ after, after.cells = server.cells ∧
      Dialogue (Server.answer plan now)
        (fun wire => scanFrom pattern (wire.ahead.length + 1) cursor keys wire) server
        (collectFrom last keys earlier) after := by
  -- The induction is on the batches before the last, for any server whose next reply deals them.
  induction earlier generalizing cursor keys server base with
  | nil =>
      have first := dialogue_dealt plan now server (congrArg Prod.fst served)
      rw [served] at first
      refine ⟨(base.deal ⟨[], last⟩).2, (Server.deal_cells base _).trans same, ?_⟩
      rw [scanFrom_eq, collectFrom]
      refine first.andThen (scanOn_grows pattern keys) ?_
      by_cases legible : Legible 0 last
      · rw [if_pos legible, if_pos legible]
        exact .silent fun wire => rfl
      · rw [if_neg legible, if_neg legible]
        exact .silent fun wire => rfl
  | cons batch earlier ih =>
      obtain ⟨next, batch⟩ := batch
      have first := dialogue_dealt plan now server (congrArg Prod.fst served)
      rw [served] at first
      have kept := (Server.deal_cells base ⟨(next, batch) :: earlier, last⟩).trans same
      rw [scanFrom_eq, collectFrom]
      by_cases legible : Legible next batch
      · rw [if_pos legible] at first ⊢
        by_cases ends : next = 0
        · rw [if_pos ends]
          refine ⟨_, kept, first.andThen (scanOn_grows pattern keys) (.silent fun wire => ?_)⟩
          exact if_pos ends
        · -- The cursor that came with the batch is the one that the server goes on from.
          have served' : Server.answer plan now (.scan next pattern scanBatch)
              (base.deal ⟨(next, batch) :: earlier, last⟩).2 =
                Server.deal { base with cursor := next, ahead := ⟨earlier, last⟩ }
                  ⟨earlier, last⟩ := by
            show (if next = 0 then _ else if next = next then _ else _) = _
            rw [if_neg ends, if_pos rfl]
            rfl
          have goesOn : scanOn pattern keys (.ok (next, batch)) = fun wire =>
              scanFrom pattern (wire.ahead.length + 1) next (keys ++ batch) wire :=
            funext fun wire => if_neg ends
          obtain ⟨after, cells, rest⟩ := ih next (keys ++ batch) rfl served'
          rw [if_neg ends]
          refine ⟨after, cells.trans kept, first.andThen (scanOn_grows pattern keys) ?_⟩
          rw [goesOn]
          exact rest
      · rw [if_neg legible] at first ⊢
        exact ⟨_, kept, first.andThen (scanOn_grows pattern keys) (.silent fun wire => rfl)⟩

/-- A scan from its beginning. -/
theorem dialogue_collected (pattern : Bytes) (server : Server) :
    ∃ after, after.cells = server.cells ∧
      Dialogue (Server.answer plan now) (scan pattern) server
        (plan server.scans (server.select now pattern)).collected after := by
  have begun : ({ server with scans := server.scans + 1 } : Server).cells = server.cells := rfl
  exact dialogue_collectFrom plan now pattern _ _ 0 [] begun rfl

/-- A scan of a server whose plan is complete collects what the pattern selects. -/
theorem dialogue_scan (complete : plan.Complete) (pattern : Bytes) {server : Server}
    (texts : ∀ key ∈ server.select now pattern, key.isText = true) :
    ∃ keys after, after.cells = server.cells ∧
      (∀ key, key ∈ keys ↔ key ∈ server.select now pattern) ∧
      Dialogue (Server.answer plan now) (scan pattern) server (.ok keys) after := by
  obtain ⟨after, cells, dialogue⟩ := dialogue_collected plan now pattern server
  rw [complete.collected_eq server.scans texts] at dialogue
  exact ⟨_, after, cells, complete.mem_keys_iff server.scans _, dialogue⟩

/-- Chunks are the items, and none of them is too long. -/
theorem chunksOf_eq {α : Type} {size : Nat} (pos : 0 < size) {fuel : Nat} {items : List α}
    (enough : items.length ≤ fuel) :
    (chunksOf size fuel items).flatten = items ∧
      ∀ chunk ∈ chunksOf size fuel items, chunk.length ≤ size := by
  induction fuel generalizing items with
  | zero =>
      rw [List.length_eq_zero_iff.mp (Nat.le_zero.mp enough)]
      exact ⟨rfl, fun chunk mem => nomatch mem⟩
  | succ fuel ih =>
      rw [chunksOf]
      cases items with
      | nil => exact ⟨rfl, fun chunk mem => nomatch mem⟩
      | cons item items =>
          have fewer : ((item :: items).drop size).length ≤ fuel := by
            rw [List.length_drop]
            rw [List.length_cons] at enough ⊢
            omega
          obtain ⟨flat, short⟩ := ih fewer
          rw [List.isEmpty_cons, if_neg Bool.false_ne_true]
          constructor
          · rw [List.flatten_cons, flat, List.take_append_drop]
          · rw [List.forall_mem_cons]
            exact ⟨List.length_take_le size _, short⟩

/-- Deleting chunks is deleting their keys one after another. -/
theorem dialogue_deleteChunks {chunks : List (List Bytes)}
    (short : ∀ chunk ∈ chunks, chunk.length ≤ deleteChunk) (removed : Nat) (server : Server) :
    Dialogue (Server.answer plan now) (deleteChunks chunks removed) server
      (.ok (removed + (server.cells.removePresent now chunks.flatten).1))
      { server with cells := (server.cells.removePresent now chunks.flatten).2 } := by
  induction chunks generalizing removed server with
  | nil => exact .silent fun wire => rfl
  | cons chunk chunks ih =>
      rw [List.forall_mem_cons] at short
      have rest := ih short.2 (removed + (server.cells.removePresent now chunk).1)
        { server with cells := (server.cells.removePresent now chunk).2 }
      rw [deleteChunks_cons, List.flatten_cons, Table.removePresent_append, ← Nat.add_assoc]
      exact (Dialogue.query (Server.integer?_del plan now short.1 server)).andThen
        (deleteOn_grows chunks removed) rest

end Client

end Remote

end TimedCache
