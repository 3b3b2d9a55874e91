import TimedCache.Proofs.Remote.Outcome

/-!
# Removing by a pattern, command by command

A removal by a pattern is **a scan and the deletion of what it brought**.  Nothing is assumed of the
server here: it need not keep any cells, it may deal out a key twice or batches without keys, and it may
count as it likes.  What is sent follows from its replies alone.

**The scan** starts at cursor zero and goes on from the cursor that came with each batch, until that is
zero again (`Tells`, `scanFrom_of_tells`).  Batches without keys do not end it.

**The deletions** name the keys of all batches, each of them as often as it came, in chunks that are
neither empty nor too long.  They go on as long as numbers come back (`deleteChunks_of_counted`), and they
end with the first exchange that brings none (`deleteChunks_of_uncounted`).  Only then, and only if all of
them are through, something is counted: the sum of the numbers, without the negative ones (`tally`).

**The sum is kept in a machine word.**  A server that counts as it likes can make it overflow with three
replies, and then it is not what is answered (`invalidate_overflows_threeChunks`).  So what is said of the
end of a removal (`Client.Purges`) is said of sums that a word can hold.

**A flush** is a removal by the pattern that accepts everything.

## Main Definitions

* `Tells` — replies that deal out an iteration
* `tally` — the sum of the numbers that come back for deletions
* `Client.Purges` — what becomes of a removal by a pattern
-/

namespace TimedCache.Remote

/-! ### Scans -/

/-- Replies deal out an iteration: each has a cursor other than zero and a batch, but the last one, which
has zero. -/
inductive Tells : List Reply → Iteration → Prop
  | last {reply : Reply} {batch : List Bytes} (reads : reply.cursorAndKeys? = some (0, batch)) :
      Tells [reply] ⟨[], batch⟩
  | next {reply : Reply} {cursor : Nat} {batch : List Bytes} {replies : List Reply}
      {earlier : List (Nat × List Bytes)} {last : List Bytes}
      (reads : reply.cursorAndKeys? = some (cursor, batch)) (goesOn : cursor ≠ 0)
      (rest : Tells replies ⟨earlier, last⟩) :
      Tells (reply :: replies) ⟨(cursor, batch) :: earlier, last⟩

/-- The commands of a scan that goes on from a cursor: the first one names it, and each of the others the
cursor that has come before. -/
def Iteration.scans (iteration : Iteration) (pattern : Bytes) (cursor : Nat) : List Command :=
  (cursor :: iteration.earlier.map Prod.fst).map fun cursor => .scan cursor pattern scanBatch

namespace Client

/-- One round of a scan. -/
theorem scanFrom_replied {reply : Reply} {next : Nat} {batch : List Bytes}
    (reads : reply.cursorAndKeys? = some (next, batch)) (pattern : Bytes) (fuel cursor : Nat)
    (keys : List Bytes) (sent : List Command) (ahead : List Exchange) :
    scanFrom pattern (fuel + 1) cursor keys ⟨sent, .replied reply :: ahead⟩ =
      if next = 0 then (.ok (keys ++ batch), ⟨sent ++ [.scan cursor pattern scanBatch], ahead⟩)
      else scanFrom pattern fuel next (keys ++ batch)
        ⟨sent ++ [.scan cursor pattern scanBatch], ahead⟩ := by
  rw [scanFrom, Wire.query_replied reads]

/-- **A scan is followed to its end**, and what it brings is kept in order. -/
theorem scanFrom_of_tells {replies : List Reply} {iteration : Iteration}
    (tells : Tells replies iteration) (pattern : Bytes) {fuel : Nat} (enough : replies.length ≤ fuel)
    (cursor : Nat) (keys : List Bytes) (sent : List Command) (ahead : List Exchange) :
    scanFrom pattern fuel cursor keys ⟨sent, replies.map .replied ++ ahead⟩ =
      (.ok (keys ++ iteration.keys), ⟨sent ++ iteration.scans pattern cursor, ahead⟩) := by
  -- Every reply takes a round, so the fuel does not run out before the last of them.
  induction tells generalizing fuel cursor keys sent with
  | last reads =>
      cases fuel with
      | zero => cases enough
      | succ fuel => exact (scanFrom_replied reads pattern fuel cursor keys sent ahead).trans (if_pos rfl)
  | @next _ next batch replies earlier last reads goesOn _ ih =>
      cases fuel with
      | zero => cases enough
      | succ fuel =>
          have round := scanFrom_replied reads pattern fuel cursor keys sent
            (replies.map .replied ++ ahead)
          rw [if_neg goesOn, ih (Nat.le_of_succ_le_succ enough), List.append_assoc,
            ← Iteration.keys_cons, List.append_assoc] at round
          exact round

end Client

/-! ### Deletions -/

/-- The number that an exchange brings. -/
def Exchange.count? : Exchange → Option Int
  | .replied reply => reply.integer?
  | _ => none

/-- The numbers that exchanges bring one after another, up to the first that brings none. -/
def counts : List Exchange → List Int
  | [] => []
  | exchange :: ahead =>
    match exchange.count? with
    | some count => count :: counts ahead
    | none => []

theorem counts_cons {exchange : Exchange} {count : Int} (brings : exchange.count? = some count)
    (ahead : List Exchange) : counts (exchange :: ahead) = count :: counts ahead := by
  rw [counts, brings]

theorem counts_of_none {ahead : List Exchange} (silent : ahead.head?.bind Exchange.count? = none) :
    counts ahead = [] := by
  cases ahead with
  | nil => rfl
  | cons exchange ahead => rw [counts, show exchange.count? = none from silent]

/-- The sum of the positive numbers among those that come back for so many deletions. -/
def tally (deletions : Nat) (ahead : List Exchange) : Nat :=
  ((((counts ahead).take deletions).filter fun count => 0 < count).map Int.toNat).sum

/-- Negative numbers add nothing, so it makes no difference to leave them out. -/
theorem sum_toNat_eq (numbers : List Int) :
    (numbers.map Int.toNat).sum = ((numbers.filter fun number => 0 < number).map Int.toNat).sum := by
  induction numbers with
  | nil => rfl
  | cons number numbers ih =>
      rw [List.map_cons, List.sum_cons, ih, List.filter_cons]
      by_cases positive : 0 < number
      · rw [if_pos (by simpa using positive), List.map_cons, List.sum_cons]
      · rw [if_neg (by simpa using positive), Int.toNat_of_nonpos (Int.not_lt.mp positive),
          Nat.zero_add]

namespace Client

variable {chunks : List (List Bytes)} {ahead : List Exchange}

/-- A deletion that brings a number is followed by the next one. -/
theorem deleteChunks_of_count? {exchange : Exchange} {count : Int}
    (brings : exchange.count? = some count) (chunk : List Bytes) (chunks : List (List Bytes))
    (removed : Nat) (sent : List Command) (ahead : List Exchange) :
    deleteChunks (chunk :: chunks) removed ⟨sent, exchange :: ahead⟩ =
      deleteChunks chunks (removed + count.toNat) ⟨sent ++ [.del chunk], ahead⟩ := by
  cases exchange with
  | replied reply => rw [deleteChunks, Wire.query_replied brings]
  | broken failure => cases brings
  | withheld failure => cases brings

/-- A deletion that brings no number is the last one.  It may have been sent or not. -/
theorem deleteChunks_of_none (silent : ahead.head?.bind Exchange.count? = none) (chunk : List Bytes)
    (chunks : List (List Bytes)) (removed : Nat) (sent : List Command) :
    ∃ failure left, ∃ tried ∈ [[], [chunk]], deleteChunks (chunk :: chunks) removed ⟨sent, ahead⟩ =
      (.error failure, ⟨sent ++ tried.map .del, left⟩) := by
  rw [deleteChunks]
  cases ahead with
  | nil => exact ⟨Wire.silence, [], [chunk], by simp, rfl⟩
  | cons exchange ahead =>
      cases exchange with
      | broken failure => exact ⟨failure, ahead, [chunk], by simp, rfl⟩
      | withheld failure =>
          refine ⟨failure, ahead, [], by simp, ?_⟩
          rw [List.map_nil, List.append_nil]
          rfl
      | replied reply =>
          have unread : reply.integer? = none := silent
          refine ⟨Wire.badReply, ahead, [chunk], by simp, ?_⟩
          simp only [Wire.query, Wire.send, unread]
          rfl

/-- **Deletions go on** as long as numbers come back. -/
theorem deleteChunks_of_counted (counted : chunks.length ≤ (counts ahead).length) (removed : Nat)
    (sent : List Command) :
    deleteChunks chunks removed ⟨sent, ahead⟩ =
      (.ok (removed + tally chunks.length ahead),
        ⟨sent ++ chunks.map .del, ahead.drop chunks.length⟩) := by
  rw [tally, ← sum_toNat_eq]
  induction chunks generalizing removed sent ahead with
  | nil => simp [deleteChunks]
  | cons chunk chunks ih =>
      cases brings : ahead.head?.bind Exchange.count? with
      | none =>
          rw [counts_of_none brings] at counted
          cases counted
      | some count =>
          obtain ⟨exchange, first, brings⟩ := Option.bind_eq_some_iff.mp brings
          obtain ⟨ahead, rfl⟩ := List.head?_eq_some_iff.mp first
          rw [counts_cons brings] at counted ⊢
          rw [deleteChunks_of_count? brings, ih (Nat.le_of_succ_le_succ counted), List.length_cons,
            List.take_succ_cons, List.map_cons, List.sum_cons, Nat.add_assoc, List.append_assoc]
          rfl

/-- **Deletions end** with the first exchange that brings no number. -/
theorem deleteChunks_of_uncounted (fewer : (counts ahead).length < chunks.length) (removed : Nat)
    (sent : List Command) :
    ∃ failure tried left, (counts ahead).length ≤ tried ∧ tried ≤ (counts ahead).length + 1 ∧
      deleteChunks chunks removed ⟨sent, ahead⟩ =
        (.error failure, ⟨sent ++ (chunks.take tried).map .del, left⟩) := by
  induction chunks generalizing removed sent ahead with
  | nil => cases fewer
  | cons chunk chunks ih =>
      cases brings : ahead.head?.bind Exchange.count? with
      | none =>
          obtain ⟨failure, left, tried, mem, ended⟩ :=
            deleteChunks_of_none brings chunk chunks removed sent
          rw [counts_of_none brings]
          obtain rfl | rfl : tried = [] ∨ tried = [chunk] := by simpa using mem
          · exact ⟨failure, 0, left, Nat.le_refl 0, Nat.zero_le 1, ended⟩
          · exact ⟨failure, 1, left, Nat.zero_le 1, Nat.le_refl 1, ended⟩
      | some count =>
          obtain ⟨exchange, first, brings⟩ := Option.bind_eq_some_iff.mp brings
          obtain ⟨ahead, rfl⟩ := List.head?_eq_some_iff.mp first
          rw [counts_cons brings] at fewer ⊢
          obtain ⟨failure, tried, left, least, most, ended⟩ :=
            ih (Nat.lt_of_succ_lt_succ fewer) (removed + count.toNat) (sent ++ [.del chunk])
          refine ⟨failure, tried + 1, left, Nat.succ_le_succ least, Nat.succ_le_succ most, ?_⟩
          rw [deleteChunks_of_count? brings, ended, List.append_assoc]
          rfl

/-- However deletions end, what has been sent of them is a first part. -/
theorem sent_deleteChunks (chunks : List (List Bytes)) (removed : Nat) (sent : List Command)
    (ahead : List Exchange) :
    ∃ tried left, (deleteChunks chunks removed ⟨sent, ahead⟩).2 =
      ⟨sent ++ (chunks.take tried).map .del, left⟩ := by
  by_cases counted : chunks.length ≤ (counts ahead).length
  · refine ⟨chunks.length, ahead.drop chunks.length, ?_⟩
    rw [deleteChunks_of_counted counted, List.take_length]
  · obtain ⟨failure, tried, left, -, -, ended⟩ :=
      deleteChunks_of_uncounted (Nat.not_le.mp counted) removed sent
    exact ⟨tried, left, congrArg Prod.snd ended⟩

/-- No chunk is empty. -/
theorem length_pos_of_mem_chunksOf {α : Type} {size : Nat} (pos : 0 < size) {fuel : Nat}
    {items chunk : List α} (mem : chunk ∈ chunksOf size fuel items) : 0 < chunk.length := by
  induction fuel generalizing items with
  | zero => cases mem
  | succ fuel ih =>
      rw [chunksOf] at mem
      cases items with
      | nil => cases mem
      | cons item items =>
          rw [List.isEmpty_cons, if_neg Bool.false_ne_true] at mem
          obtain rfl | later := List.mem_cons.mp mem
          · rw [List.length_take, List.length_cons]
            omega
          · exact ih later

/-! ### Removing by a pattern -/

/-- What becomes of a removal by a pattern if the replies to its scan deal out an iteration, by what is
ahead after them.  How it ends is told for sums that a machine word can hold: where a word overflows,
checked arithmetic ends the removal, and unchecked arithmetic falsifies its answer. -/
structure Purges (client : Client) (pattern : Bytes) (iteration : Iteration) (sent : List Command)
    (ahead : List Exchange) (chunks : List (List Bytes))
    (result : Except CacheError Nat × Client × Wire) : Prop where
  /-- The deletions name the keys of all batches, in order. -/
  names : chunks.flatten = iteration.keys
  /-- No deletion names no key, and none too many. -/
  sizes : ∀ chunk ∈ chunks, 1 ≤ chunk.length ∧ chunk.length ≤ 500
  /-- Whatever comes back, and whatever it sums up to, the whole scan is sent, and after it nothing but
  deletions, from the first one on. -/
  sends : ∃ tried left, result.2.2 =
    ⟨sent ++ iteration.scans (Glob.escape client.options.namespaceText ++ pattern) 0
      ++ (chunks.take tried).map .del, left⟩
  /-- If every deletion brings a number, the scan is sent and then all of them, and the sum of the
  positive numbers is returned and counted. -/
  succeeds : chunks.length ≤ (counts ahead).length → tally chunks.length ahead < 2 ^ 64 →
    result = (.ok (tally chunks.length ahead),
      { client with ledger := client.ledger.delete (tally chunks.length ahead) },
      ⟨sent ++ iteration.scans (Glob.escape client.options.namespaceText ++ pattern) 0
        ++ chunks.map .del, ahead.drop chunks.length⟩)
  /-- Otherwise nothing is sent after the first deletion that brings none, and nothing is counted. -/
  fails : (counts ahead).length < chunks.length → tally chunks.length ahead < 2 ^ 64 →
    ∃ failure tried left, (counts ahead).length ≤ tried ∧ tried ≤ (counts ahead).length + 1 ∧
      result = (.error failure, client,
        ⟨sent ++ iteration.scans (Glob.escape client.options.namespaceText ++ pattern) 0
          ++ (chunks.take tried).map .del, left⟩)

/-- A removal by a pattern, after a scan that came to its end. -/
theorem removeMatching_of_tells (client : Client) {replies : List Reply} {iteration : Iteration}
    (tells : Tells replies iteration) (pattern : Bytes) (sent : List Command)
    (ahead : List Exchange) :
    let deleted := deleteChunks (chunksOf deleteChunk iteration.keys.length iteration.keys) 0
      ⟨sent ++ iteration.scans (client.namespacedPattern pattern) 0, ahead⟩
    let outcome := client.settle
      (fun removed => (.ok (wordSum iteration.keys removed), client.ledger.delete removed)) deleted.1
    client.removeMatching pattern ⟨sent, replies.map .replied ++ ahead⟩ =
      (outcome.1, outcome.2, deleted.2) := by
  have enough : replies.length ≤ (replies.map Exchange.replied ++ ahead).length + 1 := by
    rw [List.length_append, List.length_map]
    omega
  have scanned : scan (client.namespacedPattern pattern) ⟨sent, replies.map .replied ++ ahead⟩ =
      (.ok iteration.keys, ⟨sent ++ iteration.scans (client.namespacedPattern pattern) 0, ahead⟩) := by
    rw [scan, scanFrom_of_tells tells _ enough, List.nil_append]
  unfold removeMatching
  rw [scanned]
  dsimp only
  generalize deleteChunks _ _ _ = deleted
  obtain ⟨said, wire⟩ := deleted
  cases said <;> rfl

/-- An open backend carries a removal out. -/
theorem perform_invalidate {client : Client} (isOpen : client.isOpen = true) (wire : Wire)
    (pattern : Bytes) :
    client.perform .live wire (.invalidate pattern) =
      let (result, ledger, wire) := client.removeMatching pattern wire
      (result, { client with ledger }, wire) := by
  unfold perform refusal?
  rw [isOpen]
  rfl

/-- A flush is a removal by the pattern that accepts everything, but for its answer. -/
theorem perform_flush (client : Client) (standing : Standing) (wire : Wire) :
    client.perform standing wire .flush =
      Prod.map (Except.map fun _ => ()) id
        (client.perform standing wire (.invalidate (utf8 "*"))) := by
  unfold perform
  cases client.refusal? standing with
  | some failure => rfl
  | none => rfl

/-- **A removal that comes through**: all that is sent, and what is answered and counted. -/
theorem invalidate_of_counted {client : Client} (isOpen : client.isOpen = true) {replies : List Reply}
    {iteration : Iteration} (tells : Tells replies iteration) (pattern : Bytes) (sent : List Command)
    {ahead : List Exchange} (chunks : List (List Bytes))
    (cut : chunksOf deleteChunk iteration.keys.length iteration.keys = chunks)
    (counted : chunks.length ≤ (counts ahead).length) :
    client.perform .live ⟨sent, replies.map .replied ++ ahead⟩ (.invalidate pattern) =
      (.ok (wordSum iteration.keys (tally chunks.length ahead)),
        { client with ledger := client.ledger.delete (tally chunks.length ahead) },
        ⟨sent ++ iteration.scans (client.namespacedPattern pattern) 0 ++ chunks.map .del,
          ahead.drop chunks.length⟩) := by
  rw [perform_invalidate isOpen, client.removeMatching_of_tells tells pattern sent ahead, cut,
    deleteChunks_of_counted counted, Nat.zero_add]
  rfl

/-- **A scan is followed to its end, and every key that it brings is deleted.**  Whatever is ahead after
the replies to the scan, the deletions are the keys of all batches in order, cut into chunks; and a flush
does the same with the pattern that accepts everything. -/
theorem invalidate_purges {client : Client} (isOpen : client.isOpen = true) {replies : List Reply}
    {iteration : Iteration} (tells : Tells replies iteration) (pattern : Bytes) (sent : List Command)
    (ahead : List Exchange) :
    let wire : Wire := ⟨sent, replies.map .replied ++ ahead⟩
    client.Purges pattern iteration sent ahead
        (chunksOf deleteChunk iteration.keys.length iteration.keys)
        (client.perform .live wire (.invalidate pattern)) ∧
      client.perform .live wire .flush =
        Prod.map (Except.map fun _ => ()) id (client.perform .live wire (.invalidate (utf8 "*"))) := by
  intro wire
  refine ⟨?_, client.perform_flush .live wire⟩
  have positive : 0 < deleteChunk := by decide
  obtain ⟨names, short⟩ := chunksOf_eq positive (Nat.le_refl iteration.keys.length)
  refine ⟨names, fun chunk mem => ⟨length_pos_of_mem_chunksOf positive mem, short chunk mem⟩,
    ?_, fun counted fits => ?_, fun fewer _ => ?_⟩
  · rw [perform_invalidate isOpen, client.removeMatching_of_tells tells pattern sent ahead]
    exact sent_deleteChunks _ 0 _ ahead
  · have performed := invalidate_of_counted isOpen tells pattern sent _ rfl counted
    rw [wordSum_of_lt fits] at performed
    exact performed
  · have performed := perform_invalidate isOpen wire pattern
    obtain ⟨failure, tried, left, least, most, ended⟩ := deleteChunks_of_uncounted fewer 0
      (sent ++ iteration.scans (client.namespacedPattern pattern) 0)
    rw [client.removeMatching_of_tells tells pattern sent ahead, ended] at performed
    exact ⟨failure, tried, left, least, most, performed⟩

/-- A scan of three rounds: the second batch has no key, and the last one repeats a key 501 times. -/
def sampleIteration : Iteration :=
  ⟨[(5, [utf8 "cache:a"]), (9, [])], List.replicate 501 (utf8 "cache:b")⟩

/-- Its 502 keys are deleted by two commands.  The server answers to the second one with a negative
number. -/
theorem invalidate_purges_sampleIteration :
    let client : Client := ⟨.standard, utf8 "127.0.0.1:6379", 0, .zero, true⟩
    let replies := [Server.batchReply 5 [utf8 "cache:a"], Server.batchReply 9 [],
      Server.batchReply 0 (List.replicate 501 (utf8 "cache:b"))]
    let wire : Wire := ⟨[], replies.map .replied ++ [.replied (.int 3), .replied (.int (-1))]⟩
    let result := client.perform .live wire (.invalidate (utf8 "*"))
    Tells replies sampleIteration ∧
      result.1 = .ok 3 ∧ result.2.1.ledger.deletes = 3 ∧
      result.2.2.sent = [.scan 0 (utf8 "cache:*") 1000, .scan 5 (utf8 "cache:*") 1000,
        .scan 9 (utf8 "cache:*") 1000, .del (utf8 "cache:a" :: List.replicate 499 (utf8 "cache:b")),
        .del (List.replicate 2 (utf8 "cache:b"))] := by
  intro client replies wire result
  have texts {key : Bytes} (text : key.isText = true) (count : Nat) :
      ∀ other ∈ List.replicate count key, other.isText = true :=
    fun other mem => List.eq_of_mem_replicate mem ▸ text
  have tells : Tells replies sampleIteration :=
    .next (Server.cursorAndKeys?_batchReply (by decide) (texts (by decide +kernel) 1)) (by decide)
      (.next (Server.cursorAndKeys?_batchReply (by decide) (List.forall_mem_nil _)) (by decide)
        (.last (Server.cursorAndKeys?_batchReply (by decide) (texts (by decide +kernel) 501))))
  have isOpen : client.isOpen = true := rfl
  obtain ⟨purges, -⟩ := invalidate_purges isOpen tells (utf8 "*") []
    [.replied (.int 3), .replied (.int (-1))]
  have performed : result = _ := purges.succeeds (by decide +kernel) (by decide +kernel)
  rw [performed]
  exact ⟨tells, by decide +kernel, by decide +kernel, by decide +kernel⟩

/-- **Three replies overflow the sum.**  A scan brings a key 1001 times, which takes three deletions, and
the server answers each of them with the largest integer that it can send.  What is returned, and what is
published of the count, is not the sum but its rest. -/
theorem invalidate_overflows_threeChunks :
    let client : Client := ⟨.standard, utf8 "127.0.0.1:6379", 0, .zero, true⟩
    let iteration : Iteration := ⟨[], List.replicate 1001 (utf8 "cache:a")⟩
    let replies := [Server.batchReply 0 iteration.last]
    let most : Exchange := .replied (.int 9223372036854775807)
    let wire : Wire := ⟨[], replies.map .replied ++ [most, most, most]⟩
    let result := client.perform .live wire (.invalidate (utf8 "*"))
    Tells replies iteration ∧
      result.2.2.sent = [.scan 0 (utf8 "cache:*") 1000, .del (List.replicate 500 (utf8 "cache:a")),
        .del (List.replicate 500 (utf8 "cache:a")), .del [utf8 "cache:a"]] ∧
      counts [most, most, most] = List.replicate 3 9223372036854775807 ∧
      tally 3 [most, most, most] = 27670116110564327421 ∧
      result.1 = .ok 9223372036854775805 ∧ result.1 ≠ .ok (tally 3 [most, most, most]) ∧
      result.2.1.ledger.published.deletes = 9223372036854775805 := by
  intro client iteration replies most wire result
  have isOpen : client.isOpen = true := rfl
  have text : (utf8 "cache:a").isText = true := by decide +kernel
  have texts : ∀ key ∈ iteration.last, key.isText = true :=
    fun key mem => List.eq_of_mem_replicate mem ▸ text
  have tells : Tells replies iteration := .last (Server.cursorAndKeys?_batchReply (by decide) texts)
  have cut : chunksOf deleteChunk iteration.keys.length iteration.keys =
      [List.replicate 500 (utf8 "cache:a"), List.replicate 500 (utf8 "cache:a"), [utf8 "cache:a"]] := by
    decide +kernel
  have sum : tally 3 [most, most, most] = 27670116110564327421 := by decide +kernel
  have performed : result = _ :=
    invalidate_of_counted isOpen tells (utf8 "*") [] _ cut (by decide +kernel)
  have returned : result.1 = .ok 9223372036854775805 := by
    have short : iteration.keys.length < word64 := by decide +kernel
    rw [performed]
    refine congrArg Except.ok ((wordSum_of_length_lt short _).trans ?_)
    exact congrArg (· % word64) sum
  refine ⟨tells, ?_, by decide +kernel, sum, returned, ?_, ?_⟩
  · rw [performed]
    decide +kernel
  · rw [returned, sum]
    exact fun same => absurd (Except.ok.inj same) (by decide)
  · rw [performed]
    decide +kernel

end Client

end TimedCache.Remote
