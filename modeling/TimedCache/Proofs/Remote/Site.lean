import Mathlib
import TimedCache.Proofs.Glob.Escape
import TimedCache.Proofs.Remote.Outcome

/-!
# Sites, and the TTL maps that they mirror

A **site** is a remote backend together with the server that it speaks to.  It mirrors a TTL map
when the server shows under full keys what the map shows under logical keys (`Site.Mirrors`), and
goes on mirroring it when both write, or remove, the same.

**What can be asked for.**  Keys that are written are texts, because the keys that come back from a
scan are read as texts.  Lifetimes are such that both sides count the same milliseconds: at least
one of them, and an expiry below `2 ^ 63` (`Options.Keeps`).  Closing, statistics and counters are
left out.

## Main Definitions

* `Table.Tellable` — what a server can tell of in its replies
* `Remote.Site` — a remote backend and its server
* `Remote.Site.Performs` — an operation carried out in conversation with the server
* `Remote.Site.Mirrors` — the server shows what a TTL map shows
* `Operation.Fits` — what can be asked for
-/

namespace TimedCache

/-! ### What can be asked for -/

/-- Text behind text is text. -/
theorem Bytes.isText_append {front rest : Bytes} (left : front.isText = true)
    (right : rest.isText = true) : Bytes.isText (front ++ rest) = true := by
  unfold isText at *
  rw [ByteArray.validateUTF8_eq_true_iff] at *
  rw [List.toByteArray_append]
  exact left.append right

/-- The lifetime of a write is none, or has a whole millisecond at least and ends below `2 ^ 63`
milliseconds. -/
def Options.Keeps (options : Options) (now : Nat) (ttl : Duration) : Prop :=
  ∀ lifetime, options.lifetime ttl = some lifetime →
    1 ≤ lifetime.wholeMillis ∧ now + lifetime.wholeMillis < 2 ^ 63

/-- An operation that works on values and their lifetimes only: what it writes has textual keys and
a lifetime that can be kept. -/
def Operation.Fits (options : Options) (now : Nat) : Operation → Prop
  | .set key _ ttl => key.isText = true ∧ options.Keeps now ttl
  | .setIfAbsent key _ ttl => key.isText = true ∧ options.Keeps now ttl
  | .setMany entries ttl => (∀ key ∈ entries.keys, key.isText = true) ∧ options.Keeps now ttl
  | .close => False
  | .stats => False
  | .increment _ _ => False
  | .decrement _ _ => False
  | _ => True

/-- Both sides give a lifetime that can be kept the same expiry, and it is below `2 ^ 63`. -/
theorem Options.Keeps.expiry {options : Options} {now : Nat} {ttl : Duration}
    (keeps : options.Keeps now ttl) :
    (Remote.Client.lifetimeMillis options ttl).map (now + ·) =
        (options.lifetime ttl).map (Entry.expiry now) ∧
      ∀ expires, (options.lifetime ttl).map (Entry.expiry now) = some expires →
        expires < 2 ^ 63 := by
  unfold Remote.Client.lifetimeMillis
  cases written : options.lifetime ttl with
  | none => exact ⟨rfl, fun expires absurd => nomatch absurd⟩
  | some lifetime =>
      obtain ⟨whole, soon⟩ := keeps lifetime written
      have word : word64 = 2 ^ 64 := rfl
      have small : lifetime.wholeMillis % word64 = lifetime.wholeMillis :=
        Nat.mod_eq_of_lt (by omega)
      have longest : Nat.max lifetime.wholeMillis 1 = lifetime.wholeMillis := Nat.max_eq_left whole
      have first : Nat.min (now + lifetime.wholeMillis) (word64 - 1) = now + lifetime.wholeMillis :=
        Nat.min_eq_left (by omega)
      rw [Option.map_some, Option.map_some, Option.map_some, Entry.expiry, small, longest, first]
      refine ⟨rfl, fun expires same => ?_⟩
      injection same with same
      omega

/-! ### What a server can tell -/

namespace Table

/-- Cells that replies can tell of: their keys are texts, and their expiries are below `2 ^ 63`. -/
def Tellable (cells : Table Cell) : Prop :=
  ∀ full cell, cells.find? full = some cell →
    full.isText = true ∧ ∀ expires, cell.expiresAt = some expires → expires < 2 ^ 63

theorem Tellable.insert {cells : Table Cell} (tellable : cells.Tellable) {full : Bytes}
    (text : full.isText = true) {cell : Cell}
    (soon : ∀ expires, cell.expiresAt = some expires → expires < 2 ^ 63) :
    (cells.insert full cell).Tellable := by
  intro other found lookup
  rw [find?_insert] at lookup
  split at lookup
  next same =>
    cases lookup
    rw [same]
    exact ⟨text, soon⟩
  next => exact tellable other found lookup

theorem Tellable.removePresent {cells : Table Cell} (tellable : cells.Tellable) (now : Nat)
    (fulls : List Bytes) : (cells.removePresent now fulls).2.Tellable := by
  intro other found lookup
  rw [find?_removePresent] at lookup
  split at lookup
  next => cases lookup
  next => exact tellable other found lookup

end Table

namespace Remote

/-! ### Sites -/

/-- A remote backend and the server that it speaks to. -/
structure Site where
  client : Client
  server : Server

namespace Site

/-- A remote backend that has just been made, and a server without cells. -/
def fresh (options : Options) (endpoint : Bytes) (database : Int) : Site :=
  ⟨⟨options, endpoint, database, .zero, true⟩, .fresh⟩

/-- An operation is performed: the remote backend and the server converse until both are through. -/
def Performs (plan : ScanPlan) (now : Nat) (standing : Standing) (before : Site) (op : Operation)
    (answer : op.Answer) (after : Site) : Prop :=
  Converses (Server.answer plan now) (before.client.party standing op) before.server
    (answer, after.client) after.server

/-- An open site whose server shows under full keys what an open map shows under logical keys, and
can tell all of it. -/
structure Mirrors (options : Options) (now : Nat) (site : Site) (map : TtlMap) : Prop where
  siteOptions : site.client.options = options
  mapOptions : map.options = options
  siteOpen : site.client.isOpen = true
  mapOpen : map.isOpen = true
  shows : ∀ key, site.server.cells.present? now (options.fullKey key) = map.see now key
  tellable : site.server.cells.Tellable

theorem mirrors_fresh (options : Options) (endpoint : Bytes) (database : Int) (now : Nat) :
    Mirrors options now (.fresh options endpoint database) (.fresh options) :=
  ⟨rfl, rfl, rfl, rfl, fun _ => rfl, fun _ _ absurd => nomatch absurd⟩

variable {options : Options} {now : Nat} {client : Client} {server server' : Server} {map : TtlMap}

/-- The mirror survives the passing of time. -/
theorem Mirrors.later {later : Nat} {site : Site} (le : now ≤ later)
    (mirrors : Mirrors options now site map) : Mirrors options later site map :=
  { mirrors with
    shows := fun key => by
      rw [TtlMap.see, Table.present?_later le, Table.present?_later le, mirrors.shows]
      rfl }

/-- Ledgers and the course of scans do not matter. -/
theorem Mirrors.keep (mirrors : Mirrors options now ⟨client, server⟩ map)
    (same : server'.cells = server.cells) (ledger : Ledger) :
    Mirrors options now ⟨{ client with ledger }, server'⟩ map where
  siteOptions := mirrors.siteOptions
  mapOptions := mirrors.mapOptions
  siteOpen := mirrors.siteOpen
  mapOpen := mirrors.mapOpen
  shows := by
    rw [same]
    exact mirrors.shows
  tellable := by
    rw [same]
    exact mirrors.tellable

/-- The mirror survives a write on both sides. -/
theorem Mirrors.write (mirrors : Mirrors options now ⟨client, server⟩ map)
    (space : options.namespaceText.isText = true) {key : Bytes} (text : key.isText = true)
    (value : Bytes) {ttl : Duration} (keeps : options.Keeps now ttl) :
    Mirrors options now
      ⟨client, { server with
        cells := server.cells.insert (options.fullKey key)
          ⟨value, (Client.lifetimeMillis options ttl).map (now + ·)⟩ }⟩
      (map.put key (map.newCell now value ttl)) where
  siteOptions := mirrors.siteOptions
  mapOptions := mirrors.mapOptions
  siteOpen := mirrors.siteOpen
  mapOpen := mirrors.mapOpen
  shows := fun other => by
    dsimp only
    rw [TtlMap.see, TtlMap.put, Table.present?_insert, Table.present?_insert, TtlMap.newCell,
      mirrors.mapOptions, keeps.expiry.1]
    simp only [options.fullKey_inj]
    exact if_congr Iff.rfl rfl (mirrors.shows other)
  tellable := mirrors.tellable.insert (Bytes.isText_append space text) fun expires expiry =>
    keeps.expiry.2 expires (keeps.expiry.1.symm.trans expiry)

/-- The mirror survives a removal of the same keys on both sides. -/
theorem Mirrors.remove (mirrors : Mirrors options now ⟨client, server⟩ map) {fulls : List Bytes}
    {cells : Table Cell} (left : ∀ key, cells.present? now key =
      if options.fullKey key ∈ fulls then none else map.see now key) :
    Mirrors options now
      ⟨client, { server with cells := (server.cells.removePresent now fulls).2 }⟩
      { map with cells } where
  siteOptions := mirrors.siteOptions
  mapOptions := mirrors.mapOptions
  siteOpen := mirrors.siteOpen
  mapOpen := mirrors.mapOpen
  shows := fun key => by
    dsimp only
    rw [Table.present?_removePresent, TtlMap.see, left]
    exact if_congr Iff.rfl rfl (mirrors.shows key)
  tellable := mirrors.tellable.removePresent now fulls

/-! ### Removing by a pattern -/

/-- The server selects the full keys of what the map shows and the pattern accepts. -/
theorem Mirrors.mem_select_iff (mirrors : Mirrors options now ⟨client, server⟩ map)
    {pattern full : Bytes} :
    full ∈ server.select now (client.namespacedPattern pattern) ↔
      ∃ key, options.fullKey key = full ∧
        (map.see now key).isSome = true ∧ Glob.accepts pattern key = true := by
  have space : client.options.namespaceText = options.namespaceText :=
    congrArg Options.namespaceText mirrors.siteOptions
  rw [Server.select, Table.mem_keys_iff, Table.find?_filter, Table.isSome_filter_present,
    Bool.and_eq_true, Client.namespacedPattern, space, Glob.accepts_escape_append,
    Option.any_eq_true]
  constructor
  · rintro ⟨there, key, stripped, accepted⟩
    have same : options.fullKey key = full := (Bytes.strip?_eq_some_iff.mp stripped).symm
    refine ⟨key, same, ?_, accepted⟩
    rw [← mirrors.shows, same]
    exact there
  · rintro ⟨key, rfl, there, accepted⟩
    refine ⟨?_, key, options.logicalKey?_fullKey key, accepted⟩
    rw [← mirrors.shows] at there
    exact there

/-- Among the keys of a scan are the full keys of what the map shows and the pattern accepts, so
they count as many. -/
theorem Mirrors.removePresent_fst (mirrors : Mirrors options now ⟨client, server⟩ map)
    {pattern : Bytes} {fulls : List Bytes}
    (members : ∀ full, full ∈ fulls ↔
      full ∈ server.select now (client.namespacedPattern pattern)) :
    (server.cells.removePresent now fulls).1 =
      map.cells.presentCount now (Glob.accepts pattern) := by
  rw [Table.removePresent_fst]
  refine Table.size_eq_of_keys (f := options.fullKey)
    (fun a b same => options.fullKey_inj.mp same) fun full => ?_
  simp only [Table.find?_filter, Table.isSome_filter_present, Bool.and_eq_true,
    decide_eq_true_eq, members, mirrors.mem_select_iff]
  constructor
  · rintro ⟨-, key, same, there, accepted⟩
    exact ⟨key, same, there, accepted⟩
  · rintro ⟨key, rfl, there, accepted⟩
    refine ⟨?_, key, rfl, there, accepted⟩
    rw [mirrors.shows]
    exact there

/-- **Removing by a pattern** counts the keys that the map shows, and keeps the mirror. -/
theorem Mirrors.removeMatching (mirrors : Mirrors options now ⟨client, server⟩ map)
    {plan : ScanPlan} (complete : plan.Complete) (pattern : Bytes) {cells : Table Cell}
    (left : ∀ key, cells.present? now key =
      if Glob.accepts pattern key then none else map.see now key) :
    ∃ ledger after,
      Dialogue (Server.answer plan now) (Client.packed (client.removeMatching pattern)) server
        (.ok (map.cells.presentCount now (Glob.accepts pattern)), ledger) after ∧
      Mirrors options now ⟨{ client with ledger }, after⟩ { map with cells } := by
  have texts : ∀ full ∈ server.select now (client.namespacedPattern pattern),
      full.isText = true := by
    intro full mem
    rw [Server.select, Table.mem_keys_iff, Table.find?_filter] at mem
    obtain ⟨cell, found⟩ := Option.isSome_iff_exists.mp mem
    exact (mirrors.tellable full cell (Option.filter_eq_some_iff.mp found).1).1
  obtain ⟨fulls, after, removed, members, dialogue⟩ :=
    client.dialogue_removeMatching complete now pattern texts
  rw [mirrors.removePresent_fst members] at dialogue
  have gone : ∀ key, cells.present? now key =
      if options.fullKey key ∈ fulls then none else map.see now key := by
    intro key
    have member : options.fullKey key ∈ fulls ↔
        (map.see now key).isSome = true ∧ Glob.accepts pattern key = true := by
      rw [members, mirrors.mem_select_iff]
      constructor
      · rintro ⟨other, same, shown⟩
        rw [← options.fullKey_inj.mp same]
        exact shown
      · intro shown
        exact ⟨key, rfl, shown⟩
    rw [left]
    by_cases accepted : Glob.accepts pattern key = true
    · -- What is accepted is dealt, unless it is not shown at all.
      rw [if_pos accepted]
      split
      next => rfl
      next missing =>
        rw [member] at missing
        symm
        rw [← Option.not_isSome_iff_eq_none]
        exact fun shown => missing ⟨shown, accepted⟩
    · rw [if_neg accepted, if_neg]
      rw [member]
      exact fun shown => accepted shown.2
  exact ⟨_, after, dialogue, (mirrors.remove gone).keep removed _⟩

end Site

end Remote

end TimedCache
