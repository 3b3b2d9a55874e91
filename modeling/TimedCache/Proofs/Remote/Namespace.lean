import Mathlib
import TimedCache.Proofs.Remote.Interchange
import TimedCache.Proofs.Remote.Traffic

/-!
# Remote backends that share a server

A remote backend files its keys behind its namespace, and nothing separates the two.  So two
backends on one server keep apart exactly when **neither namespace is a beginning of the other**
(`Bytes.Apart`): then no full key of one is a full key of the other, and no pattern of one selects a
key of the other.  Where one namespace is a beginning of the other, the shorter one's flush reaches
all keys of the longer one (`Client.accepts_of_prefix`).

**Keyed servers.**  All that is asked of the server is that it files by key: a command leaves alone
what it does not name, the replies to reads depend on nothing but what they name, and a scan tells
only of keys that its pattern accepts (`Responder.Keyed`).  What it does with a key that a command
names is its own affair, and so is whether it answers at all.

**Frame.**  Whatever a backend does, and however its exchanges end, the server has under all keys
outside of its namespace what it had before (`Client.Works.beside`).  So another backend, apart from
it, reads what it would have read (`Client.unaffected_of_apart`).

## Main Definitions

* `Bytes.Apart` — neither is a beginning of the other
* `Command.keys?` — the full keys that a command names
* `Responder.Keyed` — a server that files by key
* `Client.Works` — operations of one backend, one after another
* `Client.MayAnswer` — an answer that a backend may give
* `Server.atOnce` — a keyed server
-/

namespace TimedCache

/-! ### Namespaces -/

/-- Neither of two texts is a beginning of the other. -/
def Bytes.Apart (space other : Bytes) : Prop := ¬space <+: other ∧ ¬other <+: space

/-- Texts are apart exactly if no two texts that begin with them are the same. -/
theorem Bytes.apart_iff {space other : Bytes} :
    space.Apart other ↔ ∀ key key', space ++ key ≠ other ++ key' := by
  constructor
  · rintro ⟨forth, back⟩ key key' same
    have one : space <+: other ++ key' := same ▸ List.prefix_append space key
    rcases List.prefix_or_prefix_of_prefix one (List.prefix_append other key') with short | short
    · exact forth short
    · exact back short
  · intro differ
    constructor
    · rintro ⟨rest, rfl⟩
      exact differ rest [] (List.append_nil _).symm
    · rintro ⟨rest, rfl⟩
      exact differ [] rest (List.append_nil _)

/-- A text that begins with one of two texts that are apart does not begin with the other. -/
theorem Bytes.Apart.not_prefix {space other : Bytes} (apart : space.Apart other) (key : Bytes) :
    ¬space <+: other ++ key := by
  rintro ⟨rest, same⟩
  exact Bytes.apart_iff.mp apart rest key same

/-- The keys that a read asks for; none for all other operations. -/
def Operation.readKeys? : Operation → Option (List Bytes)
  | .get key | .has key | .remaining key => some [key]
  | .getMany keys => some keys
  | _ => none

namespace Remote

/-- A pattern of a backend accepts nothing but keys in its namespace. -/
theorem Client.prefix_of_accepts (client : Client) {pattern full : Bytes}
    (accepted : Glob.accepts (client.namespacedPattern pattern) full = true) :
    client.options.namespaceText <+: full := by
  rw [namespacedPattern, Glob.accepts_escape_append, Option.any_eq_true] at accepted
  obtain ⟨key, stripped, -⟩ := accepted
  rw [Bytes.strip?_eq_some_iff.mp stripped]
  exact List.prefix_append _ key

/-- The pattern of a flush accepts all keys behind the namespace, and so all keys of a backend whose
namespace is longer. -/
theorem Client.accepts_of_prefix (client : Client) {full : Bytes}
    (inside : client.options.namespaceText <+: full) :
    Glob.accepts (client.namespacedPattern (utf8 "*")) full = true := by
  obtain ⟨key, rfl⟩ := inside
  rw [namespacedPattern, Glob.accepts_escape_append, Bytes.strip?_append, Option.any_some,
    Glob.accepts_star]

/-! ### Keyed servers -/

/-- The full keys that a command names; none of a command about the connection itself. -/
def Command.keys? : Command → Option (List Bytes)
  | auth _ _ | select _ | ping => none
  | scan _ _ _ => some []
  | del keys | mget keys => some keys
  | get key | set key _ _ _ | has key | incrBy key _ | decrBy key _ | pttl key => some [key]

/-- A command that asks for what its keys have. -/
def Command.isRead : Command → Bool
  | get _ | has _ | mget _ | pttl _ => true
  | _ => false

variable {σ ν : Type}

/-- A server that files by key: `view` is what it has under a key. -/
structure Responder.Keyed (respond : Responder σ) (view : σ → Bytes → ν) : Prop where
  /-- A command leaves alone what it does not name. -/
  kept : ∀ command keys, command.keys? = some keys → ∀ state key, key ∉ keys →
    view (respond command state).2 key = view state key
  /-- The reply to a read depends on nothing but what it names. -/
  told : ∀ command keys, command.keys? = some keys → command.isRead = true →
    ∀ state state', (∀ key ∈ keys, view state key = view state' key) →
      (respond command state).1 = (respond command state').1
  /-- A scan tells only of keys that its pattern accepts. -/
  selected : ∀ cursor pattern count state next keys,
    (respond (.scan cursor pattern count) state).1.cursorAndKeys? = some (next, keys) →
      ∀ key ∈ keys, Glob.accepts pattern key = true

/-- Outside of a namespace, the server has what it had. -/
def Beside (view : σ → Bytes → ν) (space : Bytes) (start state : σ) : Prop :=
  ∀ key, ¬space <+: key → view state key = view start key

/-- All keys that a command names are in a namespace. -/
def Command.Within (space : Bytes) (command : Command) : Prop :=
  ∃ keys, command.keys? = some keys ∧ ∀ key ∈ keys, space <+: key

theorem Responder.Keyed.maintains {respond : Responder σ} {view : σ → Bytes → ν}
    (keyed : respond.Keyed view) {space : Bytes} {command : Command}
    (within : command.Within space) (start : σ) :
    respond.Maintains (Beside view space start) command := by
  obtain ⟨keys, names, own⟩ := within
  intro state beside key outside
  have unnamed : key ∉ keys := fun mem => outside (own key mem)
  exact (keyed.kept command keys names state key unnamed).trans (beside key outside)

/-! ### A keyed server -/

/-- Texts are read as they were sent. -/
theorem eq_of_mapM_text? {items keys : List Bytes}
    (reads : (items.map Reply.bulk).mapM Reply.text? = some keys) : keys = items := by
  induction items generalizing keys with
  | nil =>
      cases reads
      rfl
  | cons item items ih =>
      rw [List.map_cons, List.mapM_cons] at reads
      obtain ⟨first, told, reads⟩ := Option.bind_eq_some_iff.mp reads
      obtain ⟨others, rest, same⟩ := Option.bind_eq_some_iff.mp reads
      cases same
      have text : first = item := by
        unfold Reply.text? at told
        dsimp only at told
        by_cases text : item.isText = true
        · rw [if_pos text] at told
          exact (Option.some.inj told).symm
        · rw [if_neg text] at told
          cases told
      rw [ih rest, text]

namespace Server

/-- What is read of a batch is what was dealt. -/
theorem eq_of_batchReply {cursor next : Nat} {batch keys : List Bytes}
    (reads : (batchReply cursor batch).cursorAndKeys? = some (next, keys)) : keys = batch := by
  unfold batchReply Reply.cursorAndKeys? at reads
  dsimp only [Reply.items?, Option.bind_some] at reads
  split at reads
  next _ texts =>
    cases reads
    exact eq_of_mapM_text? texts
  next => cases reads

/-- A server that is nothing but its cells, and deals out each scan in a single batch. -/
def atOnce (now : Nat) : Responder (Table Cell) := fun command cells =>
  let (reply, server) := answer (fun _ keys => ⟨[], keys⟩) now command ⟨cells, 0, 0, ⟨[], []⟩⟩
  (reply, server.cells)

theorem atOnce_scan (now cursor : Nat) (pattern : Bytes) (count : Nat) (cells : Table Cell) :
    atOnce now (.scan cursor pattern count) cells =
      (batchReply 0 (if cursor = 0 then select ⟨cells, 0, 0, ⟨[], []⟩⟩ now pattern else []),
        cells) := by
  by_cases zero : cursor = 0
  · rw [zero]
    rfl
  · unfold atOnce answer
    dsimp only
    rw [if_neg zero, if_neg zero, if_neg zero]

theorem atOnce_keyed (now : Nat) : (atOnce now).Keyed Table.find? where
  kept := by
    intro command keys names cells key unnamed
    cases command with
    | set name value onlyIfAbsent millis =>
        cases names
        have other : key ≠ name := fun same => unnamed (List.mem_singleton.mpr same)
        unfold atOnce answer
        dsimp only
        split
        · rfl
        · exact (Table.find?_insert _ _ _ _).trans (if_neg other)
    | del keys =>
        cases names
        exact (cells.find?_removePresent now _ key).trans (if_neg unnamed)
    | scan cursor pattern count => rw [atOnce_scan]
    | _ => rfl
  told := by
    intro command keys names isRead cells cells' same
    have shown : ∀ key ∈ keys, cells.present? now key = cells'.present? now key :=
      fun key mem => congrArg (Option.filter _) (same key mem)
    cases command with
    | get key =>
        cases names
        exact congrArg valueReply (shown key (List.mem_singleton_self key))
    | has key =>
        cases names
        exact congrArg (fun found : Option Cell => Reply.int (if found.isSome then 1 else 0))
          (shown key (List.mem_singleton_self key))
    | mget keys =>
        cases names
        exact congrArg Reply.array (List.map_congr_left fun key mem =>
          congrArg valueReply (shown key mem))
    | pttl key =>
        cases names
        exact congrArg (fun found => Reply.int (millisLeft now found))
          (shown key (List.mem_singleton_self key))
    | _ => cases isRead
  selected := by
    intro cursor pattern count cells next keys reads key mem
    rw [atOnce_scan] at reads
    rw [eq_of_batchReply reads] at mem
    split at mem
    next =>
      rw [select, Table.mem_keys_iff, Table.find?_filter] at mem
      obtain ⟨cell, found⟩ := Option.isSome_iff_exists.mp mem
      exact (Bool.and_eq_true_iff.mp (Option.filter_eq_some_iff.mp found).2).2
    next => cases mem

end Server

/-! ### Operations -/

namespace Client

section Operations

variable {respond : Responder σ} {invariant : σ → Prop} (client : Client)
  (maintains : ∀ command : Command, command.Within client.options.namespaceText →
    respond.Maintains invariant command)

/-- The full key of a logical key is in the namespace. -/
theorem within_of_key {command : Command} {key : Bytes}
    (names : command.keys? = some [client.options.fullKey key]) :
    command.Within client.options.namespaceText := by
  refine ⟨_, names, fun full mem => ?_⟩
  rw [List.mem_singleton.mp mem]
  exact List.prefix_append _ key

theorem within_scan (space : Bytes) (cursor : Nat) (pattern : Bytes) (count : Nat) :
    (Command.scan cursor pattern count).Within space :=
  ⟨[], rfl, List.forall_mem_nil _⟩

include maintains

theorem keeps_one {α β : Type} (read : Reply → Option α) {command : Command}
    (within : command.Within client.options.namespaceText)
    (onReply : α → Except CacheError β × Ledger) :
    Party.Keeps respond invariant (packed (client.one read command onReply)) fun _ => True := by
  have query : Party.Keeps respond invariant (Wire.query read command) fun _ => True :=
    Wire.keeps_query (maintains command within) (fun _ => trivial) fun _ _ _ _ => trivial
  rw [packed_one]
  exact query.map fun _ _ => trivial

theorem keeps_setMany (entries : Table Bytes) (ttl : Duration) :
    Party.Keeps respond invariant
      (packed fun wire => client.carryOut wire (.setMany entries ttl)) fun _ => True := by
  have kept : ∀ command ∈ entries.pairs.map fun pair =>
      writeCommand client.options pair.1 pair.2 false ttl, respond.Maintains invariant command := by
    intro command mem
    obtain ⟨pair, -, rfl⟩ := List.mem_map.mp mem
    exact maintains _ (client.within_of_key rfl)
  rw [packed_setMany]
  exact (keeps_sendWrites kept).map fun _ _ => trivial

section Scans

variable (selected : ∀ cursor pattern count state next keys,
  (respond (.scan cursor pattern count) state).1.cursorAndKeys? = some (next, keys) →
    ∀ key ∈ keys, Glob.accepts pattern key = true)

include selected

/-- A scan of the namespace collects keys of the namespace. -/
theorem keeps_scan_namespace (pattern : Bytes) :
    Party.Keeps respond invariant (scan (client.namespacedPattern pattern)) fun said =>
      ∀ found, said = .ok found → ∀ key ∈ found, client.options.namespaceText <+: key :=
  keeps_scan (fun cursor => maintains _ (within_scan _ cursor _ scanBatch))
    fun cursor state next batch reads key mem =>
      client.prefix_of_accepts (selected cursor _ scanBatch state next batch reads key mem)

/-- The keys that a scan has collected are deleted, and no others. -/
theorem keeps_removeMatching (pattern : Bytes) :
    Party.Keeps respond invariant (packed (client.removeMatching pattern)) fun _ => True := by
  have orderly : ∀ said, (client.scannedOn said).Orderly := by
    intro said
    cases said with
    | error failure => exact Party.orderly_of_silent fun _ => rfl
    | ok keys => exact (deleteChunks_orderly _ 0).map _
  rw [packed_removeMatching]
  refine (client.keeps_scan_namespace maintains selected pattern).andThen (scan_orderly _) orderly
    fun said knows => ?_
  cases said with
  | error failure => exact Party.keeps_of_silent (fun _ => rfl) fun _ => trivial
  | ok keys =>
      have positive : 0 < deleteChunk := by decide
      obtain ⟨flat, -⟩ := chunksOf_eq positive (Nat.le_refl keys.length)
      have kept : ∀ chunk ∈ chunksOf deleteChunk keys.length keys,
          respond.Maintains invariant (.del chunk) := by
        refine fun chunk mem => maintains _ ⟨chunk, rfl, fun key inside => ?_⟩
        refine knows keys rfl key ?_
        rw [← flat]
        exact List.mem_flatten.mpr ⟨chunk, mem, inside⟩
      exact (keeps_deleteChunks kept 0).map fun _ _ => trivial

theorem keeps_stats :
    Party.Keeps respond invariant (packed fun wire => client.carryOut wire .stats) fun _ => True := by
  have eq : packed (fun wire => client.carryOut wire .stats) =
      Party.map (client.settle fun keys => (.ok ⟨.onServer client.endpoint client.database
        client.options.namespaceText keys.length, client.ledger.published⟩, client.ledger))
        (scan (client.namespacedPattern (utf8 "*"))) := by
    funext wire
    unfold packed carryOut Party.map
    dsimp only
    cases scan (client.namespacedPattern (utf8 "*")) wire with
    | mk said wire' => cases said <;> rfl
  rw [eq]
  exact (client.keeps_scan_namespace maintains selected (utf8 "*")).map fun _ _ => trivial

/-- **Every operation sends only commands about its own keys**, so it keeps what these keep. -/
theorem keeps_carryOut (op : Operation) :
    Party.Keeps respond invariant (packed fun wire => client.carryOut wire op) fun _ => True := by
  have forKey : ∀ {α β : Type} (read : Reply → Option α) {command : Command} {key : Bytes}
      (onReply : α → Except CacheError β × Ledger),
      command.keys? = some [client.options.fullKey key] →
      Party.Keeps respond invariant (packed (client.one read command onReply)) fun _ => True :=
    fun read _ _ onReply names => client.keeps_one maintains read (client.within_of_key names) onReply
  cases op with
  | get key => exact forKey _ _ rfl
  | set key value ttl => exact forKey _ _ rfl
  | delete key => exact forKey _ _ rfl
  | has key => exact forKey _ _ rfl
  | increment key delta => exact forKey _ _ rfl
  | decrement key delta => exact forKey _ _ rfl
  | setIfAbsent key value ttl => exact forKey _ _ rfl
  | remaining key => exact forKey _ _ rfl
  | getMany keys =>
      refine client.keeps_one maintains _ ⟨_, rfl, fun full mem => ?_⟩ _
      obtain ⟨key, -, rfl⟩ := List.mem_map.mp mem
      exact List.prefix_append _ key
  | setMany entries ttl => exact client.keeps_setMany maintains entries ttl
  | invalidate pattern => exact client.keeps_removeMatching maintains selected pattern
  | flush =>
      have forget : packed (fun wire => client.carryOut wire .flush) =
          Party.map (fun outcome => (outcome.1.map fun _ => (), outcome.2))
            (packed (client.removeMatching (utf8 "*"))) := rfl
      rw [forget]
      exact (client.keeps_removeMatching maintains selected (utf8 "*")).map fun _ _ => trivial
  | stats => exact client.keeps_stats maintains selected
  | close => exact Party.keeps_of_silent (fun _ => rfl) fun _ => trivial

theorem keeps_party (standing : Standing) (op : Operation) :
    Party.Keeps respond invariant (client.party standing op) fun _ => True := by
  cases needed : withoutCommand? op with
  | some value =>
      refine Party.keeps_of_silent (fun wire => ?_) fun _ => trivial
      unfold party perform
      rw [needed]
  | none =>
      cases refused : client.refusal? standing with
      | some failure =>
          refine Party.keeps_of_silent (fun wire => ?_) fun _ => trivial
          unfold party perform
          rw [needed, refused]
      | none =>
          rw [party_eq needed refused]
          exact (client.keeps_carryOut maintains selected op).map fun _ _ => trivial

end Scans

end Operations

/-! ### Work, and what another backend reads -/

theorem perform_options (client : Client) (standing : Standing) (op : Operation) (wire : Wire) :
    (client.party standing op wire).1.2.options = client.options := by
  unfold party perform
  cases withoutCommand? op with
  | some value =>
      dsimp only
      split <;> rfl
  | none => cases client.refusal? standing <;> rfl

/-- Operations of one backend, one after another, and what the server does meanwhile.  Each is
performed at a moment and under a context of its own, and its exchanges may end in any way. -/
inductive Works (respond : Nat → Responder σ) : Client → σ → Client → σ → Prop
  | rest {client : Client} {state : σ} : Works respond client state client state
  | performs {client client' : Client} {before middle after : σ} (now : Nat) (standing : Standing)
      (op : Operation) (exchanges : List Exchange)
      (served : Wire.Served (respond now) (.fresh exchanges) before
        (client.party standing op (.fresh exchanges)).2 middle)
      (rest : Works respond (client.party standing op (.fresh exchanges)).1.2 middle client' after) :
      Works respond client before client' after

/-- **Frame.**  What a backend does leaves alone what lies outside of its namespace. -/
theorem Works.beside {respond : Nat → Responder σ} {view : σ → Bytes → ν}
    (keyed : ∀ now, (respond now).Keyed view) {client client' : Client} {before after : σ}
    (works : client.Works respond before client' after) :
    Beside view client.options.namespaceText before after := by
  induction works with
  | rest => exact fun _ _ => rfl
  | @performs client client' before middle after now standing op exchanges served rest ih =>
      have maintains : ∀ command : Command, command.Within client.options.namespaceText →
          (respond now).Maintains (Beside view client.options.namespaceText before) command :=
        fun command within => (keyed now).maintains within before
      obtain ⟨first, -⟩ := client.keeps_party maintains (keyed now).selected standing op
        (.fresh exchanges) before middle (fun _ _ => rfl) served
      rw [perform_options] at ih
      exact fun key outside => (ih key outside).trans (first key outside)

/-- An answer that a backend may give, depending on how its exchanges end. -/
def MayAnswer (respond : Responder σ) (client : Client) (standing : Standing) (op : Operation)
    (state : σ) (answer : op.Answer) : Prop :=
  ∃ exchanges after, Wire.Served respond (.fresh exchanges) state
      (client.party standing op (.fresh exchanges)).2 after ∧
    (client.party standing op (.fresh exchanges)).1.1 = answer

/-- What a read does to a wire: nothing, or it sends one command that asks for its keys. -/
theorem party_of_read (client : Client) (standing : Standing) {op : Operation} {keys : List Bytes}
    (reads : op.readKeys? = some keys) :
    (∀ wire, (client.party standing op wire).2 = wire) ∨
      ∃ command : Command, command.keys? = some (keys.map client.options.fullKey) ∧
        command.isRead = true ∧
        ∀ wire, (client.party standing op wire).2 = (wire.send command).2 := by
  cases needed : withoutCommand? op with
  | some value =>
      refine .inl fun wire => ?_
      unfold party perform
      rw [needed]
  | none =>
      cases refused : client.refusal? standing with
      | some failure =>
          refine .inl fun wire => ?_
          unfold party perform
          rw [needed, refused]
      | none =>
          have sends : ∀ {α β : Type} (read : Reply → Option α) (command : Command)
              (onReply : α → Except CacheError β × Ledger) (wire : Wire),
              (packed (client.one read command onReply) wire).2 = (wire.send command).2 := by
            intro α β read command onReply wire
            rw [packed_one, ← Wire.query_snd read command wire]
            rfl
          rw [party_eq needed refused]
          cases op with
          | get key =>
              cases reads
              exact .inr ⟨.get (client.options.fullKey key), rfl, rfl, sends _ _ _⟩
          | has key =>
              cases reads
              exact .inr ⟨.has (client.options.fullKey key), rfl, rfl, sends _ _ _⟩
          | remaining key =>
              cases reads
              exact .inr ⟨.pttl (client.options.fullKey key), rfl, rfl, sends _ _ _⟩
          | getMany keys =>
              cases reads
              exact .inr ⟨.mget (keys.map client.options.fullKey), rfl, rfl, sends _ _ _⟩
          | _ => cases reads

/-- A read may give the same answers wherever the server has the same under its keys. -/
theorem MayAnswer.of_same {respond : Responder σ} {view : σ → Bytes → ν} (keyed : respond.Keyed view)
    {client : Client} {standing : Standing} {op : Operation} {keys : List Bytes}
    (reads : op.readKeys? = some keys) {state state' : σ}
    (same : ∀ key ∈ keys,
      view state (client.options.fullKey key) = view state' (client.options.fullKey key))
    {answer : op.Answer} (may : client.MayAnswer respond standing op state answer) :
    client.MayAnswer respond standing op state' answer := by
  obtain ⟨exchanges, after, served, eq⟩ := may
  rcases client.party_of_read standing reads with silent | ⟨command, names, isRead, sends⟩
  · refine ⟨exchanges, state', ?_, eq⟩
    rw [silent]
    exact .done
  · have told := (keyed.told command _ names isRead state state' fun full mem => by
      obtain ⟨key, inside, rfl⟩ := List.mem_map.mp mem
      exact same key inside)
    rw [sends] at served
    obtain ⟨after', served⟩ := served.of_same_reply told
    refine ⟨exchanges, after', ?_, eq⟩
    rw [sends]
    exact served

/-- A value that a backend reads is what the server tells of its key. -/
theorem MayAnswer.told {respond : Responder σ} {client : Client} {standing : Standing}
    {key : Bytes} {state : σ} {value : Bytes}
    (may : client.MayAnswer respond standing (.get key) state (.ok value)) :
    (respond (.get (client.options.fullKey key)) state).1.optionalBytes? = some (some value) := by
  obtain ⟨exchanges, after, served, eq⟩ := may
  have needed : withoutCommand? (.get key) = none := rfl
  cases refused : client.refusal? standing with
  | some failure =>
      unfold party perform at eq
      rw [needed, refused] at eq
      cases eq
  | none =>
      have carries : (fun wire => client.carryOut wire (.get key)) =
          client.one Reply.optionalBytes? (.get (client.options.fullKey key)) _ := rfl
      rw [party_eq needed refused, carries, packed_one] at served eq
      obtain ⟨-, reads⟩ := Wire.served_query served
      unfold Party.map at eq
      dsimp only at eq
      cases said : (Wire.query Reply.optionalBytes? (.get (client.options.fullKey key))
          (.fresh exchanges)).1 with
      | error failure =>
          rw [said] at eq
          cases eq
      | ok found =>
          rw [reads found said]
          rw [said] at eq
          cases found with
          | none => cases eq
          | some other =>
              cases eq
              rfl

theorem Works.of_converses {respond : Nat → Responder σ} {client client' : Client}
    {before after : σ} {now : Nat} {standing : Standing} {op : Operation} {answer : op.Answer}
    (converses : Converses (respond now) (client.party standing op) before (answer, client') after) :
    client.Works respond before client' after := by
  obtain ⟨exchanges, served, same⟩ := converses.served
  have behind : (client.party standing op (.fresh exchanges)).1.2 = client' := by rw [same]
  have rest : Works respond (client.party standing op (.fresh exchanges)).1.2 after client' after := by
    rw [behind]
    exact .rest
  exact .performs now standing op exchanges served rest

theorem MayAnswer.of_converses {respond : Responder σ} {client client' : Client}
    {standing : Standing} {op : Operation} {before after : σ} {answer : op.Answer}
    (converses : Converses respond (client.party standing op) before (answer, client') after) :
    client.MayAnswer respond standing op before answer := by
  obtain ⟨exchanges, served, same⟩ := converses.served
  exact ⟨exchanges, after, served, by rw [same]⟩

/-- **Backends that are apart do not meet.**  No full key of one is a full key of the other, no
pattern of one selects a key of the other, and whatever one of them does, the other one may read
what it might have read before. -/
theorem unaffected_of_apart {first second : Client}
    (apart : first.options.namespaceText.Apart second.options.namespaceText) :
    (∀ key other, first.options.fullKey key ≠ second.options.fullKey other) ∧
    (∀ pattern other,
      Glob.accepts (first.namespacedPattern pattern) (second.options.fullKey other) = false) ∧
    ∀ {σ ν : Type} {respond : Nat → Responder σ} {view : σ → Bytes → ν},
      (∀ now, (respond now).Keyed view) →
      ∀ {first' : Client} {before after : σ}, first.Works respond before first' after →
      ∀ (now : Nat) (standing : Standing) {op : Operation} {keys : List Bytes},
        op.readKeys? = some keys → ∀ answer : op.Answer,
          second.MayAnswer (respond now) standing op before answer ↔
            second.MayAnswer (respond now) standing op after answer := by
  refine ⟨Bytes.apart_iff.mp apart, fun pattern other => ?_, ?_⟩
  · cases accepted : Glob.accepts (first.namespacedPattern pattern) (second.options.fullKey other)
      with
    | false => rfl
    | true => exact absurd (first.prefix_of_accepts accepted) (apart.not_prefix other)
  · intro σ ν respond view keyed first' before after works now standing op keys reads answer
    have beside := works.beside keyed
    have same : ∀ key ∈ keys,
        view after (second.options.fullKey key) = view before (second.options.fullKey key) :=
      fun key _ => beside _ (apart.not_prefix key)
    constructor
    · exact MayAnswer.of_same (keyed now) reads fun key mem => (same key mem).symm
    · exact MayAnswer.of_same (keyed now) reads same

/-- An open backend whose namespace is all that matters. -/
def ofNamespace (space : Bytes) : Client := ⟨⟨.zero, 0, space⟩, [], 0, .zero, true⟩

/-- A server with a single cell, which never expires. -/
def oneCell (full value : Bytes) : Table Cell := Table.empty.insert full ⟨value, none⟩

theorem unaffected_of_apart_flush :
    Bytes.Apart (utf8 "a:") (utf8 "b:") ∧
      (∀ now, (Server.atOnce now).Keyed Table.find?) ∧
      ∃ first' after,
        (ofNamespace (utf8 "a:")).Works Server.atOnce
          ((oneCell (utf8 "b:1") (utf8 "v")).insert (utf8 "a:1") ⟨utf8 "w", none⟩) first' after ∧
        (ofNamespace (utf8 "b:")).MayAnswer (Server.atOnce 0) .live (.get (utf8 "1")) after
          (.ok (utf8 "v")) := by
  have apart : Bytes.Apart (ofNamespace (utf8 "a:")).options.namespaceText
      (ofNamespace (utf8 "b:")).options.namespaceText := by
    unfold Bytes.Apart
    decide
  let cells := (oneCell (utf8 "b:1") (utf8 "v")).insert (utf8 "a:1") ⟨utf8 "w", none⟩
  have flush : Converses (Server.atOnce 0) ((ofNamespace (utf8 "a:")).party .live .flush) cells
      (.ok (), { ofNamespace (utf8 "a:") with ledger := Ledger.zero.delete 1 })
      (oneCell (utf8 "b:1") (utf8 "v")) :=
    ⟨[Server.batchReply 0 [utf8 "a:1"], .int 1],
      [.scan 0 (utf8 "a:*") scanBatch, .del [utf8 "a:1"]], rfl, rfl⟩
  have get : Converses (Server.atOnce 0) ((ofNamespace (utf8 "b:")).party .live (.get (utf8 "1")))
      cells (.ok (utf8 "v"), { ofNamespace (utf8 "b:") with ledger := Ledger.zero.hit }) cells :=
    ⟨[.bulk (utf8 "v")], [.get (utf8 "b:1")], rfl, rfl⟩
  have works := Works.of_converses flush
  obtain ⟨-, -, unaffected⟩ := unaffected_of_apart apart
  exact ⟨apart, Server.atOnce_keyed, _, _, works,
    (unaffected Server.atOnce_keyed works 0 .live rfl _).mp (.of_converses get)⟩

/-- Different namespaces are not enough: where one is a beginning of the other, two backends share
full keys, and a flush of one takes away what the other one would have read. -/
theorem flush_reaches_longer_namespace :
    utf8 "a" ≠ utf8 "ab:" ∧
      (ofNamespace (utf8 "a")).options.fullKey (utf8 "b:1") =
        (ofNamespace (utf8 "ab:")).options.fullKey (utf8 "1") ∧
      Glob.accepts ((ofNamespace (utf8 "a")).namespacedPattern (utf8 "*"))
        ((ofNamespace (utf8 "ab:")).options.fullKey (utf8 "1")) = true ∧
      (∀ now, (Server.atOnce now).Keyed Table.find?) ∧
      ∃ first' after,
        (ofNamespace (utf8 "a")).Works Server.atOnce (oneCell (utf8 "ab:1") (utf8 "v")) first'
          after ∧
        (ofNamespace (utf8 "ab:")).MayAnswer (Server.atOnce 0) .live (.get (utf8 "1"))
          (oneCell (utf8 "ab:1") (utf8 "v")) (.ok (utf8 "v")) ∧
        ¬(ofNamespace (utf8 "ab:")).MayAnswer (Server.atOnce 0) .live (.get (utf8 "1")) after
          (.ok (utf8 "v")) := by
  have flush : Converses (Server.atOnce 0) ((ofNamespace (utf8 "a")).party .live .flush)
      (oneCell (utf8 "ab:1") (utf8 "v"))
      (.ok (), { ofNamespace (utf8 "a") with ledger := Ledger.zero.delete 1 }) .empty :=
    ⟨[Server.batchReply 0 [utf8 "ab:1"], .int 1],
      [.scan 0 (utf8 "a*") scanBatch, .del [utf8 "ab:1"]], rfl, rfl⟩
  have get : Converses (Server.atOnce 0) ((ofNamespace (utf8 "ab:")).party .live (.get (utf8 "1")))
      (oneCell (utf8 "ab:1") (utf8 "v"))
      (.ok (utf8 "v"), { ofNamespace (utf8 "ab:") with ledger := Ledger.zero.hit })
      (oneCell (utf8 "ab:1") (utf8 "v")) :=
    ⟨[.bulk (utf8 "v")], [.get (utf8 "ab:1")], rfl, rfl⟩
  refine ⟨by decide, rfl, ?_, Server.atOnce_keyed, _, _, .of_converses flush,
    .of_converses get, fun may => ?_⟩
  · exact accepts_of_prefix _ (by decide)
  · have told := may.told
    cases told

end Client

end Remote

end TimedCache
