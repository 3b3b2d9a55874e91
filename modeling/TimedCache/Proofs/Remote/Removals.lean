import TimedCache.Proofs.Bytes
import TimedCache.Proofs.Remote.Purge
import TimedCache.Proofs.Remote.Site
import TimedCache.Proofs.Store.Invalidation

/-!
# What the ledger says of removals

A removal on a server takes several exchanges, and any of them may fail when others have already taken
effect.  The server reports what it has removed in its replies to the deletions (`reported`).

**The ledger counts what is reported if the removal comes through**, and nothing if it fails
(`removal_accounts`).  Deletions are counted at the end, so what was reported before a failure is lost
to the ledger, although the keys are gone.  This is so for every wire: exchanges may end in any way, and
the server may say whatever it likes.

**A single key** is deleted by a single command.  If that fails, nothing was reported.

## Main Definitions

* `turns` — commands with what became of them
* `reported` — how many keys the server has reported as removed
* `Client.Accounts` — what a removal leaves in the ledger
-/

namespace TimedCache.Remote

/-! ### What is reported -/

/-- Whether the command of an exchange is sent. -/
def Exchange.isSent : Exchange → Bool
  | .withheld _ => false
  | _ => true

/-- Commands with what became of them: each takes the next exchange in which anything is sent. -/
def turns (commands : List Command) (ahead : List Exchange) : List (Command × Exchange) :=
  commands.zip (ahead.filter Exchange.isSent)

/-- The number that came back for a deletion. -/
def deletionCount? : Command × Exchange → Option Int
  | (.del _, exchange) => exchange.count?
  | _ => none

/-- The numbers that came back for the deletions among some commands. -/
def deletionCounts (commands : List Command) (ahead : List Exchange) : List Int :=
  (turns commands ahead).filterMap deletionCount?

/-- How many keys the server has reported as removed: the sum of the positive numbers that came back for
deletions. -/
def reported (commands : List Command) (ahead : List Exchange) : Nat :=
  (((deletionCounts commands ahead).filter fun count => 0 < count).map Int.toNat).sum

/-- To go on with a scan deletes nothing. -/
theorem Command.scan_ne_del (cursor : Nat) (pattern : Bytes) (count : Nat) (chunk : List Bytes) :
    scan cursor pattern count ≠ del chunk := by
  intro same
  cases same

section Reported

variable {commands : List Command} {ahead : List Exchange}

theorem reported_nil (ahead : List Exchange) : reported [] ahead = 0 := rfl

/-- A deletion for which a number came back. -/
theorem reported_del {reply : Reply} {count : Int} (reads : reply.integer? = some count)
    (chunk : List Bytes) (commands : List Command) (ahead : List Exchange) :
    reported (.del chunk :: commands) (.replied reply :: ahead) =
      count.toNat + reported commands ahead := by
  have counts : deletionCounts (.del chunk :: commands) (.replied reply :: ahead) =
      count :: deletionCounts commands ahead := List.filterMap_cons_some reads
  rw [reported, counts, List.filter_cons]
  split
  next => rfl
  next other =>
    have none : count.toNat = 0 := Int.toNat_of_nonpos (by simpa using other)
    rw [none, Nat.zero_add]
    rfl

/-- A reply to a command of another kind reports nothing. -/
theorem reported_cons_other {command : Command} (other : ∀ chunk, command ≠ .del chunk) (reply : Reply)
    (commands : List Command) (ahead : List Exchange) :
    reported (command :: commands) (.replied reply :: ahead) = reported commands ahead := by
  have none : deletionCount? (command, .replied reply) = none := by
    cases command with
    | del chunk => exact absurd rfl (other chunk)
    | _ => rfl
  have counts : deletionCounts (command :: commands) (.replied reply :: ahead) =
      deletionCounts commands ahead := List.filterMap_cons_none none
  rw [reported, counts]
  rfl

/-- Nothing is reported where no number came back. -/
theorem reported_of_unread (unread : ∀ turn ∈ turns commands ahead, turn.2.count? = none) :
    reported commands ahead = 0 := by
  have none : deletionCounts commands ahead = [] := by
    refine List.filterMap_eq_nil_iff.mpr fun turn mem => ?_
    obtain ⟨command, exchange⟩ := turn
    cases command with
    | del chunk => exact unread _ mem
    | _ => rfl
  rw [reported, none]
  rfl

end Reported

/-! ### One exchange -/

/-- **A query succeeds** with what a reply reads as, **or it fails**, and then its command may have been
sent or not, but no reply was read. -/
theorem Wire.query_cases {α : Type} (read : Reply → Option α) (command : Command) (wire : Wire) :
    (∃ reply value ahead, wire.ahead = .replied reply :: ahead ∧ read reply = some value ∧
      wire.query read command = (.ok value, ⟨wire.sent ++ [command], ahead⟩)) ∨
    ∃ failure tried ahead, wire.query read command = (.error failure, ⟨wire.sent ++ tried, ahead⟩) ∧
      (∀ other ∈ tried, other = command) ∧
      ∀ turn ∈ turns tried wire.ahead, ∀ reply, turn.2 = .replied reply → read reply = none := by
  obtain ⟨sent, ahead⟩ := wire
  have alone : ∀ other ∈ [command], other = command := fun other => List.eq_of_mem_singleton
  cases ahead with
  | nil => exact .inr ⟨silence, [command], [], rfl, alone, List.forall_mem_nil _⟩
  | cons exchange ahead =>
      cases exchange with
      | replied reply =>
          cases reads : read reply with
          | some value =>
              exact .inl ⟨reply, value, ahead, rfl, reads, query_replied reads command sent ahead⟩
          | none =>
              refine .inr ⟨badReply, [command], ahead, ?_, alone, fun turn mem other same => ?_⟩
              · simp only [query, send, reads]
              · obtain rfl : turn = (command, .replied reply) := List.eq_of_mem_singleton mem
                cases same
                exact reads
      | broken failure =>
          refine .inr ⟨failure, [command], ahead, rfl, alone, fun turn mem other same => ?_⟩
          obtain rfl : turn = (command, .broken failure) := List.eq_of_mem_singleton mem
          cases same
      | withheld failure =>
          refine .inr ⟨failure, [], ahead, ?_, List.forall_mem_nil _, List.forall_mem_nil _⟩
          rw [List.append_nil]
          rfl

namespace Client

/-! ### Loops -/

/-- **A scan reports nothing**, whatever becomes of it.  If it comes to its end, every command of it was
replied to, so what is reported later is reported from there on. -/
theorem scanFrom_sends (pattern : Bytes) (fuel cursor : Nat) (keys : List Bytes) (wire : Wire) :
    ∃ commands, (scanFrom pattern fuel cursor keys wire).2.sent = wire.sent ++ commands ∧
      (∀ command ∈ commands, ∀ chunk, command ≠ .del chunk) ∧
      ∀ found, (scanFrom pattern fuel cursor keys wire).1 = .ok found → ∀ more,
        reported (commands ++ more) wire.ahead =
          reported more (scanFrom pattern fuel cursor keys wire).2.ahead := by
  induction fuel generalizing cursor keys wire with
  | zero =>
      refine ⟨[], (List.append_nil _).symm, List.forall_mem_nil _, fun found ended => ?_⟩
      cases ended
  | succ fuel ih =>
      have other := Command.scan_ne_del cursor pattern scanBatch
      rw [scanFrom]
      obtain ⟨reply, ⟨next, batch⟩, ahead, first, -, asked⟩ | ⟨failure, tried, ahead, asked, alone, -⟩ :=
        wire.query_cases Reply.cursorAndKeys? (.scan cursor pattern scanBatch)
      · rw [asked]
        dsimp only
        split
        next =>
          refine ⟨_, rfl, ?_, fun _ _ more => ?_⟩
          · exact List.forall_mem_singleton.mpr other
          · rw [first]
            exact reported_cons_other other reply more ahead
        next =>
          obtain ⟨commands, sent, others, through⟩ :=
            ih next (keys ++ batch) ⟨wire.sent ++ [.scan cursor pattern scanBatch], ahead⟩
          refine ⟨.scan cursor pattern scanBatch :: commands, ?_, ?_, fun found ended more => ?_⟩
          · rw [sent, List.append_assoc]
            rfl
          · exact List.forall_mem_cons.mpr ⟨other, others⟩
          · rw [first, ← through found ended more]
            exact reported_cons_other other reply (commands ++ more) ahead
      · rw [asked]
        refine ⟨tried, rfl, fun command mem => ?_, fun found ended => ?_⟩
        · rw [alone command mem]
          exact other
        · cases ended

/-- **Deletions sum up what is reported**, if all of them come through. -/
theorem deleteChunks_sends (chunks : List (List Bytes)) (removed : Nat) (wire : Wire) :
    ∃ commands, (deleteChunks chunks removed wire).2.sent = wire.sent ++ commands ∧
      ∀ total, (deleteChunks chunks removed wire).1 = .ok total →
        total = removed + reported commands wire.ahead := by
  induction chunks generalizing removed wire with
  | nil =>
      refine ⟨[], (List.append_nil _).symm, fun total same => ?_⟩
      cases same
      rfl
  | cons chunk chunks ih =>
      rw [deleteChunks]
      obtain ⟨reply, count, ahead, first, reads, asked⟩ | ⟨failure, tried, ahead, asked, -, -⟩ :=
        wire.query_cases Reply.integer? (.del chunk)
      · obtain ⟨commands, sent, sum⟩ := ih (removed + count.toNat) ⟨wire.sent ++ [.del chunk], ahead⟩
        rw [asked]
        refine ⟨.del chunk :: commands, ?_, fun total ended => ?_⟩
        · rw [sent, List.append_assoc]
          rfl
        · rw [sum total ended, first, reported_del reads, Nat.add_assoc]
      · rw [asked]
        refine ⟨tried, rfl, fun total ended => ?_⟩
        cases ended

/-! ### Removals -/

/-- **What a removal leaves in the ledger**, by its answer and the commands that it has sent. -/
structure Accounts {α : Type} (client : Client) (ahead : List Exchange) (commands : List Command)
    (answer : Except CacheError α) (ledger : Ledger) : Prop where
  /-- After a success, what was reported is counted. -/
  counted : ∀ value, answer = .ok value → ledger = client.ledger.delete (reported commands ahead)
  /-- After a failure, nothing is. -/
  uncounted : ∀ failure, answer = .error failure → ledger = client.ledger

theorem removeMatching_sends (client : Client) (pattern : Bytes) (wire : Wire) :
    ∃ commands, (client.removeMatching pattern wire).2.2.sent = wire.sent ++ commands ∧
      client.Accounts wire.ahead commands (client.removeMatching pattern wire).1
        (client.removeMatching pattern wire).2.1 := by
  obtain ⟨commands, sent, -, through⟩ :=
    scanFrom_sends (client.namespacedPattern pattern) (wire.ahead.length + 1) 0 [] wire
  unfold removeMatching scan
  generalize scanFrom _ _ _ _ wire = scanned at sent through
  obtain ⟨_ | keys, middle⟩ := scanned
  · exact ⟨commands, sent, nofun, fun _ _ => rfl⟩
  · obtain ⟨more, sent', sum⟩ := deleteChunks_sends (chunksOf deleteChunk keys.length keys) 0 middle
    dsimp only
    generalize deleteChunks _ _ _ = deleted at sent' sum
    obtain ⟨_ | removed, after⟩ := deleted
    · refine ⟨commands ++ more, ?_, nofun, fun _ _ => rfl⟩
      rw [sent', sent, List.append_assoc]
    · refine ⟨commands ++ more, ?_, fun _ _ => ?_, nofun⟩
      · rw [sent', sent, List.append_assoc]
      · rw [through keys rfl more, sum removed rfl, Nat.zero_add]

/-- To delete a single key takes a single command.  If no number comes back, nothing was reported. -/
theorem delete_sends (client : Client) (key : Bytes) (wire : Wire) :
    ∃ commands, (client.carryOut wire (.delete key)).2.2.sent = wire.sent ++ commands ∧
      client.Accounts wire.ahead commands (client.carryOut wire (.delete key)).1
        (client.carryOut wire (.delete key)).2.1 ∧
      ∀ failure, (client.carryOut wire (.delete key)).1 = .error failure →
        reported commands wire.ahead = 0 := by
  unfold carryOut one
  dsimp only
  obtain ⟨reply, count, ahead, first, reads, asked⟩ | ⟨failure, tried, ahead, asked, -, unread⟩ :=
    wire.query_cases Reply.integer? (.del [client.options.fullKey key])
  · rw [asked]
    refine ⟨_, rfl, ⟨fun _ _ => ?_, nofun⟩, nofun⟩
    rw [first, reported_del reads, reported_nil]
    rfl
  · rw [asked]
    refine ⟨tried, rfl, ⟨nofun, fun _ _ => rfl⟩, fun _ _ => reported_of_unread fun turn mem => ?_⟩
    obtain ⟨command, exchange⟩ := turn
    cases exchange with
    | replied reply => exact unread _ mem reply rfl
    | broken failure => rfl
    | withheld failure => rfl

/-- Only success or failure matters, not the value. -/
theorem Accounts.map {α β : Type} {client : Client} {ahead : List Exchange} {commands : List Command}
    {answer : Except CacheError α} {ledger : Ledger}
    (accounts : client.Accounts ahead commands answer ledger) (f : α → β) :
    client.Accounts ahead commands (answer.map f) ledger := by
  cases answer with
  | ok value => exact ⟨fun _ _ => accounts.counted value rfl, nofun⟩
  | error failure => exact ⟨nofun, fun _ _ => accounts.uncounted failure rfl⟩

/-- What is refused sends nothing, and counts nothing. -/
theorem accounts_refused {α : Type} (client : Client) (ahead : List Exchange) (failure : CacheError) :
    client.Accounts ahead [] (.error failure : Except CacheError α) client.ledger :=
  ⟨nofun, fun _ _ => rfl⟩

/-- A removal of any kind, from its first command to its last. -/
theorem perform_sends (client : Client) (standing : Standing) (wire : Wire) {op : Operation}
    (removal : op.isRemoval = true) :
    ∃ commands, (client.perform standing wire op).2.2.sent = wire.sent ++ commands ∧
      client.Accounts wire.ahead commands (client.perform standing wire op).1
        (client.perform standing wire op).2.1.ledger ∧
      ∀ key, op = .delete key → ∀ failure, (client.perform standing wire op).1 = .error failure →
        reported commands wire.ahead = 0 := by
  have needed : withoutCommand? op = none := by cases op <;> first | rfl | cases removal
  unfold perform
  rw [needed]
  dsimp only
  cases client.refusal? standing with
  | some failure => exact ⟨[], (List.append_nil _).symm, client.accounts_refused _ _, fun _ _ _ _ => rfl⟩
  | none =>
      cases op with
      | delete key =>
          obtain ⟨commands, sent, accounts, silent⟩ := client.delete_sends key wire
          exact ⟨commands, sent, accounts, fun _ _ => silent⟩
      | invalidate pattern =>
          obtain ⟨commands, sent, accounts⟩ := client.removeMatching_sends pattern wire
          exact ⟨commands, sent, accounts, nofun⟩
      | flush =>
          obtain ⟨commands, sent, accounts⟩ := client.removeMatching_sends (utf8 "*") wire
          exact ⟨commands, sent, accounts.map _, nofun⟩
      | close | get _ | set _ _ _ | has _ | stats | increment _ _ | decrement _ _ | setIfAbsent _ _ _
      | getMany _ | setMany _ _ | remaining _ => cases removal

/-- **What the ledger says of a removal**, whatever becomes of its exchanges.  What the server reports
is counted if the removal comes through, and lost if it fails, so the count is right in no other cases
than these: the removal has come through, or nothing was reported.  A deletion of a single key is always
one of them. -/
theorem removal_accounts (client : Client) (standing : Standing) (wire : Wire) {op : Operation}
    (removal : op.isRemoval = true) :
    let result := client.perform standing wire op
    ∃ commands, result.2.2.sent = wire.sent ++ commands ∧
      client.Accounts wire.ahead commands result.1 result.2.1.ledger ∧
      (result.2.1.ledger.deletes = client.ledger.deletes + reported commands wire.ahead ↔
        (∃ value, result.1 = .ok value) ∨ reported commands wire.ahead = 0) ∧
      ∀ key, op = .delete key →
        result.2.1.ledger.deletes = client.ledger.deletes + reported commands wire.ahead := by
  intro result
  obtain ⟨commands, sent, accounts, silent⟩ := client.perform_sends standing wire removal
  change client.Accounts wire.ahead commands result.1 result.2.1.ledger at accounts
  have right : result.2.1.ledger.deletes = client.ledger.deletes + reported commands wire.ahead ↔
      (∃ value, result.1 = .ok value) ∨ reported commands wire.ahead = 0 := by
    cases ended : result.1 with
    | ok value =>
        rw [accounts.counted value ended]
        exact ⟨fun _ => .inl ⟨value, rfl⟩, fun _ => rfl⟩
    | error failure =>
        rw [accounts.uncounted failure ended]
        constructor
        · exact fun same => .inr (by omega)
        · rintro (⟨value, same⟩ | none)
          · cases same
          · rw [none, Nat.add_zero]
  refine ⟨commands, sent, accounts, right, fun key single => right.mpr ?_⟩
  cases ended : result.1 with
  | ok value => exact .inl ⟨value, rfl⟩
  | error failure => exact .inr (silent key single failure ended)

/-- Two keys are found and removed by a flush: the wire ends with the reply to the deletion. -/
def twoRemoved : Wire :=
  .fresh [.replied (Server.batchReply 0 [utf8 "cache:a", utf8 "cache:b"]), .replied (.int 2)]

/-- What is reported to this flush is counted. -/
theorem removal_accounts_twoRemoved :
    let client : Client := ⟨.standard, utf8 "127.0.0.1:6379", 0, .zero, true⟩
    let result := client.perform .live twoRemoved .flush
    Operation.flush.isRemoval = true ∧ result.1 = .ok () ∧ result.2.1.ledger.deletes = 2 ∧
      ∃ commands, result.2.2.sent = twoRemoved.sent ++ commands ∧
        client.Accounts twoRemoved.ahead commands result.1 result.2.1.ledger := by
  intro client result
  have removal : Operation.flush.isRemoval = true := rfl
  obtain ⟨commands, sent, accounts, -, -⟩ := client.removal_accounts .live twoRemoved removal
  exact ⟨removal, by decide +kernel, by decide +kernel, commands, sent, accounts⟩

/-- A removal of two chunks of keys, of which the second one fails.  What was reported is the number that
came back for the first one. -/
theorem invalidate_of_second_failed {client : Client} (isOpen : client.isOpen = true)
    {keys first second : List Bytes} (texts : ∀ key ∈ keys, key.isText = true)
    (chunks : chunksOf deleteChunk keys.length keys = [first, second]) (pattern : Bytes) {count : Int}
    (fits : fitsInt64 count = true) (text : Bytes) :
    let ahead : List Exchange :=
      [.replied (Server.batchReply 0 keys), .replied (.int count), .replied (.failure text)]
    let commands := [.scan 0 (client.namespacedPattern pattern) scanBatch, .del first, .del second]
    client.perform .live (.fresh ahead) (.invalidate pattern) =
        (.error Wire.badReply, client, ⟨commands, []⟩) ∧
      reported commands ahead = count.toNat := by
  have tells : Tells [Server.batchReply 0 keys] ⟨[], keys⟩ :=
    .last (Server.cursorAndKeys?_batchReply (by decide) texts)
  have brings : (Reply.int count).integer? = some count := Reply.integer?_int fits
  have counted : (Exchange.replied (.int count)).count? = some count := brings
  have performed := perform_invalidate isOpen ⟨[], [Server.batchReply 0 keys].map .replied ++
    [.replied (.int count), .replied (.failure text)]⟩ pattern
  rw [client.removeMatching_of_tells tells pattern [],
    show Iteration.keys ⟨[], keys⟩ = keys from rfl, chunks,
    deleteChunks_of_count? counted] at performed
  refine ⟨performed, ?_⟩
  rw [reported_cons_other (Command.scan_ne_del _ _ _), reported_del brings]
  rfl

/-- 501 keys, which are deleted in two chunks. -/
def manyKeys : List Bytes := (List.range 501).map fun n => utf8 "cache:" ++ natText n

/-- They are texts: what stands in front of the numbers is, and so are digits. -/
theorem isText_of_mem_manyKeys : ∀ key ∈ manyKeys, key.isText = true := by
  intro key mem
  obtain ⟨n, -, rfl⟩ := List.mem_map.mp mem
  refine Bytes.isText_append (Bytes.isText_utf8 "cache:") (Bytes.isText_of_ascii fun b mem => ?_)
  have digit := List.all_eq_true.mp (isDecimal_natText n).digit b mem
  rw [isDigitByte, Bool.and_eq_true, decide_eq_true_eq, decide_eq_true_eq] at digit
  exact UInt8.lt_of_le_of_lt digit.2 (by decide)

/-- **A failure hides what was removed before it.**  The first chunk is removed and reported, but the
second one is not, so the ledger does not count the 500 keys that are gone. -/
theorem removal_uncounted_manyKeys :
    let client : Client := ⟨.standard, utf8 "127.0.0.1:6379", 0, .zero, true⟩
    let wire := Wire.fresh [.replied (Server.batchReply 0 manyKeys), .replied (.int 500),
      .replied (.failure (utf8 "ERR boom"))]
    let result := client.perform .live wire (.invalidate (utf8 "*"))
    result.2.2.sent = [.scan 0 (utf8 "cache:*") 1000, .del (manyKeys.take 500),
        .del [utf8 "cache:500"]] ∧
      reported result.2.2.sent wire.ahead = 500 ∧ result.1 = .error Wire.badReply ∧
      result.2.1.ledger.deletes = 0 ∧
      result.2.1.ledger.deletes ≠ client.ledger.deletes + reported result.2.2.sent wire.ahead := by
  intro client wire result
  have isOpen : client.isOpen = true := rfl
  have chunks : chunksOf deleteChunk manyKeys.length manyKeys =
      [manyKeys.take 500, [utf8 "cache:500"]] := by decide +kernel
  have pattern : client.namespacedPattern (utf8 "*") = utf8 "cache:*" := by decide +kernel
  have fits : fitsInt64 500 = true := by decide
  obtain ⟨performed, told⟩ := invalidate_of_second_failed isOpen isText_of_mem_manyKeys chunks
    (utf8 "*") fits (utf8 "ERR boom")
  rw [pattern] at performed told
  have performed : result = _ := performed
  rw [performed]
  exact ⟨rfl, told, rfl, rfl, fun same => absurd (same.trans (congrArg _ told)) (by decide)⟩

end Client

end TimedCache.Remote
