import TimedCache.Proofs.Remote.Purge

/-!
# Keys that a scan repeats

A server may deal out a key of a scan more than once.  Next to a plan stands the plan without
repetitions, which deals out every key once, in the first batch that has it (`ScanPlan.distinct`), and
the same operation over both is compared.

**Removals** by a pattern, and flushes, end alike: with the same answer, the same count in the ledger
and the same cells on the server.  Deletions count only what is present, so a repeated key adds nothing,
be its copies deleted by one command or by several.

**Statistics** do not.  They count the keys as they come, so a key that came twice is counted twice.

Nothing is assumed of a plan.  Its batches may hold what no pattern selects, keys that are no texts, and
cursors that end a scan early or that no reply can carry; a scan then fails over both plans, or ends
early over both.

## Main Definitions

* `Iteration.distinct`, `ScanPlan.distinct` — the same batches without repetitions
* `EndsWith` — how a party ends in conversation with a server
* `Client.found` — the keys that an operation works with
-/

namespace TimedCache

/-- A removal by a pattern, or of everything. -/
def Operation.isBulkRemoval : Operation → Bool
  | .flush | .invalidate _ => true
  | _ => false

namespace Remote

/-! ### Batches -/

/-- The keys of a batch that have not been seen before, each of them once. -/
def unseen (seen batch : List Bytes) : List Bytes :=
  (batch.filter fun key => key ∉ seen).dedup

/-- Batches without the keys that have been seen before. -/
def unseenBatches : (seen : List Bytes) → List (Nat × List Bytes) → List (Nat × List Bytes)
  | _, [] => []
  | seen, (cursor, batch) :: earlier =>
    (cursor, unseen seen batch) :: unseenBatches (seen ++ batch) earlier

/-- The same batches, with the same cursors, without repetitions. -/
def Iteration.distinct (iteration : Iteration) : Iteration :=
  ⟨unseenBatches [] iteration.earlier, unseen (iteration.earlier.flatMap Prod.snd) iteration.last⟩

/-- The plan that deals out the same keys without repetitions. -/
def ScanPlan.distinct (plan : ScanPlan) : ScanPlan := fun scan keys => (plan scan keys).distinct

theorem mem_unseen_iff {seen batch : List Bytes} {key : Bytes} :
    key ∈ unseen seen batch ↔ key ∈ batch ∧ key ∉ seen := by
  rw [unseen, List.mem_dedup, List.mem_filter, decide_eq_true_eq]

/-! ### Every key once -/

/-- The keys of a list, each of them once. -/
structure Condenses (keys kept : List Bytes) : Prop where
  nodup : kept.Nodup
  mem_iff : ∀ key, key ∈ kept ↔ key ∈ keys

theorem Condenses.nil : Condenses [] [] := ⟨List.nodup_nil, fun _ => Iff.rfl⟩

/-- Of a further batch, what has not been seen is kept. -/
theorem Condenses.append {keys kept : List Bytes} (condenses : Condenses keys kept)
    (batch : List Bytes) : Condenses (keys ++ batch) (kept ++ unseen keys batch) where
  nodup := by
    refine List.nodup_append.mpr ⟨condenses.nodup, List.nodup_dedup _, ?_⟩
    rintro key old other new rfl
    exact (mem_unseen_iff.mp new).2 ((condenses.mem_iff key).mp old)
  mem_iff key := by
    rw [List.mem_append, List.mem_append, mem_unseen_iff, condenses.mem_iff]
    by_cases old : key ∈ keys <;> simp [old]

/-- What is left is as many keys as there are different ones. -/
theorem Condenses.length_eq {keys kept : List Bytes} (condenses : Condenses keys kept) :
    kept.length = keys.toFinset.card := by
  rw [← List.toFinset_card_of_nodup condenses.nodup]
  congr 1
  ext key
  rw [List.mem_toFinset, List.mem_toFinset, condenses.mem_iff]

/-- If what has been seen is legible, the rest of a batch is legible exactly if the batch is. -/
theorem legible_unseen_iff {seen : List Bytes} (texts : ∀ key ∈ seen, key.isText = true)
    (cursor : Nat) (batch : List Bytes) :
    Legible cursor (unseen seen batch) ↔ Legible cursor batch := by
  refine and_congr Iff.rfl ⟨fun legible key mem => ?_, fun legible key mem => ?_⟩
  · by_cases old : key ∈ seen
    · exact texts key old
    · exact legible key (mem_unseen_iff.mpr ⟨mem, old⟩)
  · exact legible key (mem_unseen_iff.mp mem).1

/-- Collected from some batches, and from others: both fail alike, or the others bring the same keys,
but each of them once. -/
def CollectAlike (one other : Except CacheError (List Bytes)) : Prop :=
  (∃ failure, one = .error failure ∧ other = .error failure) ∨
    ∃ keys kept, one = .ok keys ∧ other = .ok kept ∧ Condenses keys kept

/-- From whatever has been collected before. -/
theorem collectFrom_unseen (last : List Bytes) (earlier : List (Nat × List Bytes))
    {keys kept : List Bytes} (condenses : Condenses keys kept)
    (texts : ∀ key ∈ keys, key.isText = true) :
    CollectAlike (collectFrom last keys earlier)
      (collectFrom (unseen (keys ++ earlier.flatMap Prod.snd) last) kept
        (unseenBatches keys earlier)) := by
  -- What has been collected is what has been seen, so both lists grow by the same batch.
  induction earlier generalizing keys kept with
  | nil =>
      rw [List.flatMap_nil, List.append_nil, unseenBatches, collectFrom, collectFrom]
      by_cases legible : Legible 0 last
      · rw [if_pos legible, if_pos ((legible_unseen_iff texts 0 last).mpr legible)]
        exact .inr ⟨_, _, rfl, rfl, condenses.append last⟩
      · rw [if_neg legible, if_neg fun rest => legible ((legible_unseen_iff texts 0 last).mp rest)]
        exact .inl ⟨_, rfl, rfl⟩
  | cons batch earlier ih =>
      obtain ⟨cursor, batch⟩ := batch
      rw [List.flatMap_cons, ← List.append_assoc, unseenBatches, collectFrom, collectFrom]
      by_cases legible : Legible cursor batch
      · rw [if_pos legible, if_pos ((legible_unseen_iff texts cursor batch).mpr legible)]
        by_cases ends : cursor = 0
        · rw [if_pos ends, if_pos ends]
          exact .inr ⟨_, _, rfl, rfl, condenses.append batch⟩
        · rw [if_neg ends, if_neg ends]
          exact ih (condenses.append batch) (List.forall_mem_append.mpr ⟨texts, legible.2⟩)
      · rw [if_neg legible,
          if_neg fun rest => legible ((legible_unseen_iff texts cursor batch).mp rest)]
        exact .inl ⟨_, rfl, rfl⟩

/-- **Without repetitions the same keys are collected**, each of them once. -/
theorem Iteration.collected_distinct (iteration : Iteration) :
    CollectAlike iteration.collected iteration.distinct.collected :=
  collectFrom_unseen iteration.last iteration.earlier .nil (List.forall_mem_nil _)

/-- A complete plan deals out as many different keys as there are to deal out. -/
theorem ScanPlan.Complete.card_eq {plan : ScanPlan} (complete : plan.Complete) (scan : Nat)
    {keys : List Bytes} (nodup : keys.Nodup) :
    (plan scan keys).keys.toFinset.card = keys.length := by
  rw [← List.toFinset_card_of_nodup nodup]
  congr 1
  ext key
  rw [List.mem_toFinset, List.mem_toFinset, complete.mem_keys_iff]

/-! ### What is made of the keys -/

namespace Client

variable (plan : ScanPlan) (now : Nat)

/-- The end of a removal, by what its scan has collected: what is answered and counted, and what is
left. -/
def removal (client : Client) (now : Nat) (cells : Table Cell) :
    Except CacheError (List Bytes) → (Except CacheError Nat × Ledger) × Table Cell
  | .error failure => ((.error failure, client.ledger), cells)
  | .ok keys =>
    let (removed, rest) := cells.removePresent now keys
    ((.ok removed, client.ledger.delete removed), rest)

/-- What is collected alike is removed alike. -/
theorem removal_congr (client : Client) (now : Nat) (cells : Table Cell)
    {one other : Except CacheError (List Bytes)} (alike : CollectAlike one other) :
    client.removal now cells one = client.removal now cells other := by
  obtain ⟨failure, rfl, rfl⟩ | ⟨keys, kept, rfl, rfl, condenses⟩ := alike
  · rfl
  · rw [removal, removal, Table.removePresent_congr now condenses.mem_iff cells]

/-- The keys that were collected are deleted. -/
theorem dialogue_scannedOn (client : Client) (collected : Except CacheError (List Bytes))
    (server : Server) :
    ∃ after, after.cells = (client.removal now server.cells collected).2 ∧
      Dialogue (Server.answer plan now) (client.scannedOn collected) server
        (client.removal now server.cells collected).1 after := by
  cases collected with
  | error failure => exact ⟨server, rfl, .silent fun wire => rfl⟩
  | ok keys =>
      have positive : 0 < deleteChunk := by decide
      obtain ⟨flat, short⟩ := chunksOf_eq positive (Nat.le_refl keys.length)
      have delete := dialogue_deleteChunks plan now short 0 server
      rw [flat, Nat.zero_add] at delete
      have deleted := delete.map
        (client.settle fun removed => (.ok (wordSum keys removed), client.ledger.delete removed))
      rw [settle, wordSum_of_le (server.cells.removePresent_fst_le now keys)] at deleted
      exact ⟨_, rfl, deleted⟩

/-- A removal by a pattern, whatever its scan is dealt. -/
theorem dialogue_removal (client : Client) (pattern : Bytes) (server : Server) :
    let collected :=
      (plan server.scans (server.select now (client.namespacedPattern pattern))).collected
    ∃ after, after.cells = (client.removal now server.cells collected).2 ∧
      Dialogue (Server.answer plan now) (packed (client.removeMatching pattern)) server
        (client.removal now server.cells collected).1 after := by
  intro collected
  obtain ⟨middle, cells, scanned⟩ :=
    dialogue_collected plan now (client.namespacedPattern pattern) server
  obtain ⟨after, left, deleted⟩ := dialogue_scannedOn plan now client collected middle
  rw [cells] at left deleted
  refine ⟨after, left, ?_⟩
  rw [packed_removeMatching]
  exact scanned.andThen client.scannedOn_grows deleted

/-- What statistics say of a number of keys. -/
def report (client : Client) (keys : Nat) : Report :=
  ⟨.onServer client.endpoint client.database client.options.namespaceText keys,
    client.ledger.published⟩

theorem packed_stats (client : Client) :
    packed (fun wire => client.carryOut wire .stats) =
      Party.map (fun found => (found.map fun keys => client.report keys.length, client.ledger))
        (scan (client.namespacedPattern (utf8 "*"))) := by
  funext wire
  unfold packed carryOut Party.map
  dsimp only
  cases scan (client.namespacedPattern (utf8 "*")) wire with
  | mk said wire' => cases said <;> rfl

end Client

/-! ### Both plans -/

/-- A party ends in conversation with a server in this way and in no other: with a result and with the
cells that are left. -/
def EndsWith {α : Type} (plan : ScanPlan) (now : Nat) (party : Party α) (server : Server) (result : α)
    (cells : Table Cell) : Prop :=
  ∃ after, after.cells = cells ∧ ∀ other state,
    Converses (Server.answer plan now) party server other state ↔ other = result ∧ state = after

/-- A dialogue ends in one way. -/
theorem Dialogue.endsWith {α : Type} {plan : ScanPlan} {now : Nat} {party : Party α}
    {server after : Server} {result : α}
    (dialogue : Dialogue (Server.answer plan now) party server result after) :
    EndsWith plan now party server result after.cells :=
  ⟨after, rfl, fun _ _ => dialogue.converses_iff⟩

/-- A party that hands on another form of its result ends in the same way. -/
theorem EndsWith.map {α β : Type} {plan : ScanPlan} {now : Nat} {party : Party α} {server : Server}
    {result : α} {cells : Table Cell} (ends : EndsWith plan now party server result cells) (f : α → β) :
    EndsWith plan now (party.map f) server (f result) cells := by
  obtain ⟨after, left, converses⟩ := ends
  refine ⟨after, left, fun other state => ⟨?_, ?_⟩⟩
  · rintro ⟨replies, sent, through, answers⟩
    injection through with same used
    obtain ⟨result', state'⟩ :=
      (converses _ state).mp ⟨replies, sent, Prod.ext rfl used, answers⟩
    exact ⟨same.symm.trans (congrArg f result'), state'⟩
  · rintro ⟨rfl, rfl⟩
    obtain ⟨replies, sent, through, answers⟩ := (converses result state).mpr ⟨rfl, rfl⟩
    refine ⟨replies, sent, ?_, answers⟩
    rw [Party.map, through]

namespace Client

variable (plan : ScanPlan) (now : Nat) (client : Client) (standing : Standing) (server : Server)

/-- What is refused ends at once. -/
theorem endsWith_refused {failure : CacheError} (refused : client.refusal? standing = some failure)
    {op : Operation} (needed : withoutCommand? op = none) :
    EndsWith plan now (client.party standing op) server (.error failure, client) server.cells := by
  refine Dialogue.endsWith (.silent fun wire => ?_)
  unfold party perform
  rw [needed, refused]

/-- The keys that an operation works with: what its scan has collected, if it may be sent at all. -/
def found (pattern : Bytes) : Except CacheError (List Bytes) :=
  match client.refusal? standing with
  | some failure => .error failure
  | none => (plan server.scans (server.select now (client.namespacedPattern pattern))).collected

variable {plan now client standing server} in
theorem found_of_refused {failure : CacheError} (refused : client.refusal? standing = some failure)
    (pattern : Bytes) : client.found plan now standing server pattern = .error failure := by
  rw [found, refused]

variable {plan now client standing server} in
theorem found_of_admitted (admitted : client.refusal? standing = none) (pattern : Bytes) :
    client.found plan now standing server pattern =
      (plan server.scans (server.select now (client.namespacedPattern pattern))).collected := by
  rw [found, admitted]

/-- Without repetitions the same keys are found. -/
theorem found_distinct (pattern : Bytes) :
    CollectAlike (client.found plan now standing server pattern)
      (client.found plan.distinct now standing server pattern) := by
  cases admitted : client.refusal? standing with
  | some failure =>
      rw [found_of_refused admitted, found_of_refused admitted]
      exact .inl ⟨failure, rfl, rfl⟩
  | none =>
      rw [found_of_admitted admitted, found_of_admitted admitted]
      exact Iteration.collected_distinct _

/-- **The end of a removal by a pattern.** -/
theorem endsWith_invalidate (pattern : Bytes) :
    let ended := client.removal now server.cells (client.found plan now standing server pattern)
    EndsWith plan now (client.party standing (.invalidate pattern)) server
      (ended.1.1, { client with ledger := ended.1.2 }) ended.2 := by
  dsimp only
  cases admitted : client.refusal? standing with
  | some failure =>
      rw [found_of_refused admitted]
      exact client.endsWith_refused plan now standing server admitted rfl
  | none =>
      obtain ⟨after, cells, dialogue⟩ := dialogue_removal plan now client pattern server
      rw [found_of_admitted admitted, ← cells, party_eq rfl admitted]
      exact (dialogue.map fun outcome => (outcome.1, { client with ledger := outcome.2 })).endsWith

/-- The end of a flush is that of a removal by the pattern that accepts everything. -/
theorem endsWith_flush :
    let ended := client.removal now server.cells
      (client.found plan now standing server (utf8 "*"))
    EndsWith plan now (client.party standing .flush) server
      (ended.1.1.map fun _ => (), { client with ledger := ended.1.2 }) ended.2 := by
  have forget : client.party standing .flush =
      Party.map (fun result => (result.1.map fun _ => (), result.2))
        (client.party standing (.invalidate (utf8 "*"))) := by
    funext wire
    unfold party Party.map
    rw [perform_flush]
    rfl
  rw [forget]
  exact (client.endsWith_invalidate plan now standing server (utf8 "*")).map
    fun result => (result.1.map fun _ => (), result.2)

/-- **The end of statistics.** -/
theorem endsWith_stats :
    EndsWith plan now (client.party standing .stats) server
      ((client.found plan now standing server (utf8 "*")).map fun keys => client.report keys.length,
        client) server.cells := by
  cases admitted : client.refusal? standing with
  | some failure =>
      rw [found_of_refused admitted]
      exact client.endsWith_refused plan now standing server admitted rfl
  | none =>
      obtain ⟨after, cells, dialogue⟩ :=
        dialogue_collected plan now (client.namespacedPattern (utf8 "*")) server
      rw [found_of_admitted admitted, ← cells, party_eq rfl admitted, packed_stats]
      exact ((dialogue.map fun found =>
        (found.map fun keys => client.report keys.length, client.ledger)).map fun outcome =>
          (outcome.1, { client with ledger := outcome.2 })).endsWith

/-- **Removals do not notice repetitions.** -/
theorem removals_alike {op : Operation} (bulk : op.isBulkRemoval = true) :
    ∃ result cells, EndsWith plan now (client.party standing op) server result cells ∧
      EndsWith plan.distinct now (client.party standing op) server result cells := by
  have same (pattern : Bytes) := client.removal_congr now server.cells
    (client.found_distinct plan now standing server pattern)
  cases op with
  | flush =>
      have distinct := client.endsWith_flush plan.distinct now standing server
      rw [← same] at distinct
      exact ⟨_, _, client.endsWith_flush plan now standing server, distinct⟩
  | invalidate pattern =>
      have distinct := client.endsWith_invalidate plan.distinct now standing server pattern
      rw [← same] at distinct
      exact ⟨_, _, client.endsWith_invalidate plan now standing server pattern, distinct⟩
  | close | get _ | set _ _ _ | delete _ | has _ | stats | increment _ _ | decrement _ _
  | setIfAbsent _ _ _ | getMany _ | setMany _ _ | remaining _ => cases bulk

/-- Without repetitions, statistics count the different keys. -/
theorem endsWith_stats_distinct :
    EndsWith plan.distinct now (client.party standing .stats) server
      ((client.found plan now standing server (utf8 "*")).map fun keys =>
        client.report keys.toFinset.card, client) server.cells := by
  have ends := client.endsWith_stats plan.distinct now standing server
  obtain ⟨failure, one, other⟩ | ⟨keys, kept, one, other, condenses⟩ :=
    client.found_distinct plan now standing server (utf8 "*")
  · rw [one]
    rw [other] at ends
    exact ends
  · rw [one, Except.map]
    rw [other, Except.map, condenses.length_eq] at ends
    exact ends

/-- The report of keys as they come is right exactly if none of them came twice. -/
theorem report_length_eq_iff (keys : List Bytes) :
    client.report keys.length = client.report keys.toFinset.card ↔ keys.Nodup := by
  have counts : keys.toFinset.card = keys.length ↔ keys.Nodup :=
    Multiset.toFinset_card_eq_card_iff_nodup
  rw [← counts, report, report, Report.mk.injEq, Holdings.onServer.injEq]
  exact ⟨fun same => same.1.2.2.2.symm, fun same => ⟨⟨rfl, rfl, rfl, same.symm⟩, rfl⟩⟩

/-- **Only statistics notice repetitions.**  Over a plan and over the same plan without repetitions,
removals end alike.  Statistics count the keys as they came over the one, and the different keys over
the other, which is the same only if no key came twice.  Over a complete plan, the different keys are
the keys that are there. -/
theorem repetitions_show_in_stats :
    let stats := client.party standing .stats
    let found := client.found plan now standing server (utf8 "*")
    let present := server.select now (client.namespacedPattern (utf8 "*"))
    (∀ op : Operation, op.isBulkRemoval = true → ∃ result cells,
        EndsWith plan now (client.party standing op) server result cells ∧
        EndsWith plan.distinct now (client.party standing op) server result cells) ∧
      EndsWith plan now stats server
        (found.map fun keys => client.report keys.length, client) server.cells ∧
      EndsWith plan.distinct now stats server
        (found.map fun keys => client.report keys.toFinset.card, client) server.cells ∧
      (∀ keys : List Bytes,
        client.report keys.length = client.report keys.toFinset.card ↔ keys.Nodup) ∧
      (plan.Complete → client.refusal? standing = none → (∀ key ∈ present, key.isText = true) →
        ∃ keys, found = .ok keys ∧ keys.toFinset.card = present.length) := by
  intro stats found present
  refine ⟨fun op bulk => client.removals_alike plan now standing server bulk,
    client.endsWith_stats plan now standing server,
    client.endsWith_stats_distinct plan now standing server, client.report_length_eq_iff, ?_⟩
  intro complete admitted texts
  have collected := complete.collected_eq server.scans texts
  exact ⟨_, (found_of_admitted admitted _).trans collected,
    complete.card_eq server.scans (Table.distinct _)⟩

/-- A plan that deals out every key twice, in one batch. -/
def again : ScanPlan := fun _ keys => ⟨[], keys ++ keys⟩

theorem again_complete : ScanPlan.Complete again where
  mem_keys_iff scan keys key := by simp [again, Iteration.keys]
  cursors := nofun

/-- A server with a single key. -/
def oneKey : Server :=
  { Server.fresh with cells := Table.empty.insert (utf8 "cache:a") ⟨utf8 "1", none⟩ }

/-- Two keys are found there, of which one is left if repetitions are left out. -/
theorem repetitions_show_in_stats_oneKey :
    let client : Client := ⟨.standard, utf8 "127.0.0.1:6379", 0, .zero, true⟩
    let present := oneKey.select 0 (client.namespacedPattern (utf8 "*"))
    ScanPlan.Complete again ∧ client.refusal? .live = none ∧ (∀ key ∈ present, key.isText = true) ∧
      ∃ keys, client.found again 0 .live oneKey (utf8 "*") = .ok keys ∧
        keys.toFinset.card = present.length ∧ keys.length = 2 ∧ present.length = 1 := by
  intro client present
  have admitted : client.refusal? .live = none := rfl
  have texts : ∀ key ∈ present, key.isText = true := by decide +kernel
  obtain ⟨-, -, -, -, counted⟩ := client.repetitions_show_in_stats again 0 .live oneKey
  obtain ⟨keys, found, card⟩ := counted again_complete admitted texts
  have two : (client.found again 0 .live oneKey (utf8 "*")).map List.length = .ok 2 := by
    decide +kernel
  rw [found] at two
  injection two with two
  exact ⟨again_complete, admitted, texts, keys, found, card, two, by decide +kernel⟩

/-- **Statistics are wrong there.**  They tell of two keys. -/
theorem stats_count_again :
    let client : Client := ⟨.standard, utf8 "127.0.0.1:6379", 0, .zero, true⟩
    ScanPlan.Complete again ∧
      EndsWith again 0 (client.party .live .stats) oneKey (.ok (client.report 2), client)
        oneKey.cells ∧
      EndsWith (ScanPlan.distinct again) 0 (client.party .live .stats) oneKey
        (.ok (client.report 1), client) oneKey.cells ∧
      client.report 2 ≠ client.report 1 := by
  intro client
  have found : client.found again 0 .live oneKey (utf8 "*") =
      .ok [utf8 "cache:a", utf8 "cache:a"] := by decide +kernel
  have one := client.endsWith_stats again 0 .live oneKey
  have other := client.endsWith_stats_distinct again 0 .live oneKey
  rw [found, Except.map] at one other
  exact ⟨again_complete, one, other, by decide +kernel⟩

end Client

end Remote

end TimedCache
