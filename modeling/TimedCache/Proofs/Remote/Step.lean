import TimedCache.Proofs.Remote.Site

/-!
# A remote backend is a TTL map

Every operation that a site can be asked for ends in one conversation, with the answer that the
mirrored TTL map gives, and the site goes on mirroring the map (`Site.Mirrors.perform`).

Most operations are a single command (`Site.follows_one`): its reply is read as the wanted kind of
value, the value leads to the answer of the map, and what the command does to the server keeps the
mirror.  The others are a pipeline of writes and the removals by a pattern.
-/

namespace TimedCache.Remote.Site

variable {plan : ScanPlan} {options : Options} {now : Nat} {client : Client} {server : Server}
  {map : TtlMap}

/-- The dialogue of an operation ends with the answer of the map, and the mirror is kept. -/
def Follows (plan : ScanPlan) (options : Options) (now : Nat) (client : Client) (server : Server)
    (map : TtlMap) (op : Operation) : Prop :=
  ∃ ledger after,
    Dialogue (Server.answer plan now) (Client.packed fun wire => client.carryOut wire op) server
      ((map.carryOut now op).1, ledger) after ∧
    Mirrors options now ⟨{ client with ledger }, after⟩ (map.carryOut now op).2

/-- An operation of a single command follows the map if the reply leads to the answer of the map and
the command keeps the mirror. -/
theorem follows_one {α : Type} {op : Operation} (read : Reply → Option α) (command : Command)
    (onReply : α → Except CacheError op.Value × Ledger)
    (carries : ∀ wire, client.carryOut wire op = client.one read command onReply wire) {value : α}
    (reads : read (Server.answer plan now command server).1 = some value)
    (answers : (onReply value).1 = (map.carryOut now op).1)
    (after : Mirrors options now ⟨client, (Server.answer plan now command server).2⟩
      (map.carryOut now op).2) :
    Follows plan options now client server map op := by
  refine ⟨(onReply value).2, (Server.answer plan now command server).2, ?_, after.keep rfl _⟩
  have eq : (fun wire => client.carryOut wire op) = client.one read command onReply :=
    funext carries
  rw [eq, ← answers]
  exact client.dialogue_one reads onReply

section Operations

variable (mirrors : Mirrors client.options now ⟨client, server⟩ map)

include mirrors

/-! ### Reads -/

theorem Mirrors.follows_get (key : Bytes) :
    Follows plan client.options now client server map (.get key) := by
  have reads := optionalBytes?_valueReply (server.cells.present? now (client.options.fullKey key))
  refine follows_one Reply.optionalBytes? (.get (client.options.fullKey key)) _ (fun _ => rfl)
    reads ?_ ?_
  · rw [TtlMap.carryOut_get, mirrors.shows]
    cases (map.see now key).map Cell.value <;> rfl
  · rw [TtlMap.carryOut_get]
    exact mirrors

theorem Mirrors.follows_has (key : Bytes) :
    Follows plan client.options now client server map (.has key) := by
  have reads := integer?_indicator (server.cells.present? now (client.options.fullKey key)).isSome
  refine follows_one Reply.integer? (.has (client.options.fullKey key))
    (fun count => (.ok (decide (0 < count)), client.ledger)) (fun _ => rfl) reads ?_ mirrors
  show Except.ok _ = Except.ok (map.see now key).isSome
  rw [mirrors.shows]
  cases (map.see now key).isSome <;> rfl

theorem Mirrors.follows_getMany (keys : List Bytes) :
    Follows plan client.options now client server map (.getMany keys) := by
  have reads := optionalValues?_valueReplies (keys.map client.options.fullKey)
    (server.cells.present? now)
  refine follows_one Reply.optionalValues? (.mget (keys.map client.options.fullKey))
    (fun values => (.ok (Client.collect keys values .empty client.ledger).1,
      (Client.collect keys values .empty client.ledger).2)) (fun _ => rfl) reads ?_ mirrors
  refine congrArg Except.ok ?_
  rw [List.map_map]
  refine (Client.collect_fst keys (fun key =>
    server.cells.present? now (client.options.fullKey key)) .empty client.ledger).trans ?_
  simp only [mirrors.shows]
  rfl

theorem Mirrors.follows_remaining (key : Bytes) :
    Follows plan client.options now client server map (.remaining key) := by
  have soon : ∀ cell, server.cells.present? now (client.options.fullKey key) = some cell →
      ∀ expires, cell.expiresAt = some expires → expires < 2 ^ 63 := by
    intro cell found
    have stored := (Option.filter_eq_some_iff.mp found).1
    exact (mirrors.tellable (client.options.fullKey key) cell stored).2
  have reads := integer?_millisLeft now soon
  refine follows_one Reply.integer? (.pttl (client.options.fullKey key)) (client.leftOn key)
    (fun _ => rfl) reads ?_ ?_
  · rw [TtlMap.carryOut_remaining, ← mirrors.shows]
    exact client.leftOn_millisLeft key now _
  · rw [TtlMap.carryOut_remaining]
    exact mirrors

/-! ### Writes -/

theorem Mirrors.follows_set (space : client.options.namespaceText.isText = true) {key : Bytes}
    (text : key.isText = true) (value : Bytes) {ttl : Duration}
    (keeps : client.options.Keeps now ttl) :
    Follows plan client.options now client server map (.set key value ttl) :=
  follows_one Client.success? (Client.writeCommand client.options key value false ttl)
    (fun _ => (.ok (), client.ledger.set)) (fun _ => rfl) rfl rfl
    (mirrors.write space text value keeps)

/-- A conditional write is refused where the map shows something, and is a write elsewhere. -/
theorem Mirrors.answer_setIfAbsent (plan : ScanPlan) (key value : Bytes) (ttl : Duration) :
    Server.answer plan now (Client.writeCommand client.options key value true ttl) server =
      if (map.see now key).isSome then (.nil, server)
      else
        Server.answer plan now (Client.writeCommand client.options key value false ttl) server := by
  rw [← mirrors.shows]
  rfl

theorem Mirrors.follows_setIfAbsent (space : client.options.namespaceText.isText = true)
    {key : Bytes} (text : key.isText = true) (value : Bytes) {ttl : Duration}
    (keeps : client.options.Keeps now ttl) :
    Follows plan client.options now client server map (.setIfAbsent key value ttl) := by
  have answered := mirrors.answer_setIfAbsent plan key value ttl
  by_cases there : (map.see now key).isSome = true
  · have carried : map.carryOut now (.setIfAbsent key value ttl) = (.ok false, map) :=
      if_pos there
    rw [if_pos there] at answered
    have reads : (Server.answer plan now (Client.writeCommand client.options key value true ttl)
        server).1.optionalText? = some none := by
      rw [answered]
      rfl
    refine follows_one Reply.optionalText?
      (Client.writeCommand client.options key value true ttl) _ (fun _ => rfl) reads ?_ ?_
    · rw [carried]
    · rw [answered, carried]
      exact mirrors
  · have carried : map.carryOut now (.setIfAbsent key value ttl) =
        (.ok true, map.put key (map.newCell now value ttl)) :=
      if_neg there
    rw [if_neg there] at answered
    have reads : (Server.answer plan now (Client.writeCommand client.options key value true ttl)
        server).1.optionalText? = some (some (utf8 "OK")) := by
      rw [answered]
      rfl
    refine follows_one Reply.optionalText?
      (Client.writeCommand client.options key value true ttl) _ (fun _ => rfl) reads ?_ ?_
    · rw [carried]
    · rw [answered, carried]
      exact mirrors.write space text value keeps

/-- A pipeline of writes keeps the mirror. -/
theorem Mirrors.writeMany (space : client.options.namespaceText.isText = true) {ttl : Duration}
    (keeps : client.options.Keeps now ttl) (pairs : List (Bytes × Bytes))
    (texts : ∀ pair ∈ pairs, pair.1.isText = true) :
    Mirrors client.options now
      ⟨client, ((Server.answer plan now).all (pairs.map fun pair =>
        Client.writeCommand client.options pair.1 pair.2 false ttl) server).2⟩
      (map.putMany now ttl pairs) := by
  induction pairs generalizing server map with
  | nil => exact mirrors
  | cons pair pairs ih =>
      rw [List.forall_mem_cons] at texts
      rw [List.map_cons, Responder.all_cons]
      exact ih (mirrors.write space texts.1 pair.2 keeps) texts.2

theorem Mirrors.follows_setMany (space : client.options.namespaceText.isText = true)
    {entries : Table Bytes} (texts : ∀ key ∈ entries.keys, key.isText = true) {ttl : Duration}
    (keeps : client.options.Keeps now ttl) :
    Follows plan client.options now client server map (.setMany entries ttl) := by
  have texts : ∀ pair ∈ entries.pairs, pair.1.isText = true := fun pair mem =>
    texts pair.1 (List.mem_map_of_mem mem)
  have succeed : ∀ command ∈ entries.pairs.map fun pair =>
      Client.writeCommand client.options pair.1 pair.2 false ttl,
      ∀ state, Client.success? (Server.answer plan now command state).1 = some () := by
    intro command mem state
    obtain ⟨pair, -, rfl⟩ := List.mem_map.mp mem
    rfl
  have writes := Client.dialogue_sendWrites _ succeed server
  exact ⟨_, _, client.dialogue_setMany writes,
    (mirrors.writeMany space keeps entries.pairs texts).keep rfl _⟩

/-! ### Removals -/

theorem Mirrors.follows_delete (key : Bytes) :
    Follows plan client.options now client server map (.delete key) := by
  have short : [client.options.fullKey key].length ≤ deleteChunk := by
    show 1 ≤ 500
    decide
  have reads := Server.integer?_del plan now short server
  refine follows_one Reply.integer? (.del [client.options.fullKey key])
    (fun count => (.ok (), client.ledger.delete count.toNat)) (fun _ => rfl) reads rfl ?_
  refine mirrors.remove fun other => ?_
  rw [Table.present?_erase, ← TtlMap.see]
  simp only [List.mem_singleton, client.options.fullKey_inj]

theorem Mirrors.follows_flush (complete : plan.Complete) :
    Follows plan client.options now client server map .flush := by
  have left : ∀ key, Table.empty.present? now key =
      if Glob.accepts (utf8 "*") key then none else map.see now key := by
    intro key
    rw [Glob.accepts_star]
    rfl
  obtain ⟨ledger, after, dialogue, mirrors⟩ := mirrors.removeMatching complete (utf8 "*") left
  have forget : Client.packed (fun wire => client.carryOut wire .flush) =
      Party.map (fun outcome => (outcome.1.map fun _ => (), outcome.2))
        (Client.packed (client.removeMatching (utf8 "*"))) := rfl
  refine ⟨ledger, after, ?_, mirrors⟩
  rw [forget]
  exact dialogue.map fun outcome => (outcome.1.map fun _ => (), outcome.2)

theorem Mirrors.follows_invalidate (complete : plan.Complete) (pattern : Bytes) :
    Follows plan client.options now client server map (.invalidate pattern) := by
  have left : ∀ key, (map.cells.filter fun key _ => !Glob.accepts pattern key).present? now key =
      if Glob.accepts pattern key then none else map.see now key := by
    intro key
    rw [Table.present?_filter_key fun key => !Glob.accepts pattern key, TtlMap.see]
    cases Glob.accepts pattern key <;> rfl
  exact mirrors.removeMatching complete pattern left

end Operations

/-! ### Calls -/

/-- **Every operation that fits follows the map.** -/
theorem Mirrors.follows (complete : plan.Complete) (space : options.namespaceText.isText = true)
    (mirrors : Mirrors options now ⟨client, server⟩ map) {op : Operation}
    (fits : op.Fits options now) : Follows plan options now client server map op := by
  have same : client.options = options := mirrors.siteOptions
  subst same
  cases op with
  | get key => exact mirrors.follows_get key
  | set key value ttl => exact mirrors.follows_set space fits.1 value fits.2
  | delete key => exact mirrors.follows_delete key
  | has key => exact mirrors.follows_has key
  | flush => exact mirrors.follows_flush complete
  | invalidate pattern => exact mirrors.follows_invalidate complete pattern
  | setIfAbsent key value ttl => exact mirrors.follows_setIfAbsent space fits.1 value fits.2
  | getMany keys => exact mirrors.follows_getMany keys
  | setMany entries ttl => exact mirrors.follows_setMany space fits.1 fits.2
  | remaining key => exact mirrors.follows_remaining key
  | close => exact fits.elim
  | stats => exact fits.elim
  | increment key delta => exact fits.elim
  | decrement key delta => exact fits.elim

/-- **Every call that fits** is one conversation, ends with the answer of the map and keeps the
mirror. -/
theorem Mirrors.perform (complete : plan.Complete) (space : options.namespaceText.isText = true)
    {site : Site} (mirrors : Mirrors options now site map) {op : Operation}
    (fits : op.Fits options now) :
    ∃ after : Site,
      Dialogue (Server.answer plan now) (site.client.party .live op) site.server
        ((map.perform now .live op).1, after.client) after.server ∧
      Mirrors options now after (map.perform now .live op).2 := by
  obtain ⟨client, server⟩ := site
  have carried : map.perform now .live op = map.carryOut now op := by
    rw [TtlMap.perform, mirrors.mapOpen]
    cases op.isData <;> rfl
  rw [carried]
  cases needed : Client.withoutCommand? op with
  | none =>
      obtain ⟨ledger, after, dialogue, mirrors'⟩ := mirrors.follows complete space fits
      exact ⟨_, Client.dialogue_party mirrors.siteOpen needed dialogue, mirrors'⟩
  | some value =>
      -- Nothing is sent, and the map has nothing to do.
      cases op with
      | getMany keys =>
          cases keys with
          | nil => exact ⟨⟨client, server⟩, .silent fun _ => rfl, mirrors⟩
          | cons key keys => cases needed
      | setMany entries ttl =>
          by_cases empty : entries.size = 0
          · have nothing : map.carryOut now (.setMany entries ttl) = (.ok (), map) := by
              rw [TtlMap.carryOut, TtlMap.putMany, List.length_eq_zero_iff.mp empty]
              rfl
            rw [nothing]
            refine ⟨⟨client, server⟩, .silent fun wire => ?_, mirrors⟩
            unfold Client.party Client.perform
            rw [needed]
            rfl
          · rw [Client.withoutCommand?, if_neg empty] at needed
            cases needed
      | close => exact fits.elim
      | _ => cases needed

end TimedCache.Remote.Site
