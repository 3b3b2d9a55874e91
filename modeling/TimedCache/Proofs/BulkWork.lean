import TimedCache.EntityCache
import TimedCache.Proofs.Deployment.Alone
import TimedCache.Proofs.Registry

/-!
# Work in bulk

To forget several keys and patterns, to write a value through a chain and to close all backends of a
registry are each a list of **items**, all of which are attempted, whatever becomes of the others
(`tries_all`).

**Every item once, in order.**  An item has a backend perform an operation, or fails by itself, for a name
that is not registered.  What is asked is exactly what the items ask, one note for each, and each item
has an outcome (`Attempted`).

**The result** is a success if all outcomes are.  Otherwise it is the failure of the first item that
failed.

**Each backend** ends up as if its own items had been the only ones (`TriesAll.alone`).

All of this is so whatever the surroundings answer.  A registry may have its backends in any order, since
every order is that of some registry.

## Main Definitions

* `Item` — an item of such work
* `Attempted` — the notes and the outcomes of items
* `TriesAll` — work that tries all its items
* `EntityCache.forgetItems`, `Registry.writeItems`, `Registry.closeItems` — the items of each kind of work
-/

namespace TimedCache

/-! ### Items -/

/-- An item of work in bulk. -/
inductive Item where
  /-- A backend is asked to perform an operation. -/
  | ask (backend : Nat) (context : Context) (op : Operation)
  /-- Nobody can be asked, and the item fails. -/
  | hopeless (failure : CacheError)

namespace Item

/-- The part of a program that attempts an item. -/
def program : Item → Program (Except CacheError Unit)
  | ask backend context op => (Program.perform backend context op).forget
  | hopeless failure => .done (.error failure)

/-- What is asked for an item, if anything. -/
def call? : Item → Option Call
  | ask backend context op => some (.perform backend context op)
  | hopeless _ => none

/-- What is asked of a backend for some items, in order. -/
def callsTo (backend : Nat) (items : List Item) : List Call :=
  (items.filterMap call?).filter (Call.isTo backend)

/-- Items only ask backends to perform operations. -/
theorem operations_of_items {items : List Item} :
    ∀ call ∈ items.filterMap call?, ∃ backend context op, call = .perform backend context op := by
  intro call mem
  obtain ⟨item, -, asks⟩ := List.mem_filterMap.mp mem
  cases item with
  | ask backend context op => exact ⟨backend, context, op, (Option.some.inj asks).symm⟩
  | hopeless failure => cases asks

end Item

/-- **Items that were attempted**, in order: for each of them the note of its question, if there is any,
and its outcome. -/
inductive Attempted : List Item → List Note → List (Except CacheError Unit) → Prop
  | nil : Attempted [] [] []
  | ask {backend : Nat} {context : Context} {op : Operation} {worker wall : Nat} {answer : op.Answer}
      {items : List Item} {notes : List Note} {outcomes : List (Except CacheError Unit)}
      (rest : Attempted items notes outcomes) :
      Attempted (.ask backend context op :: items)
        (⟨worker, wall, .perform backend context op, answer⟩ :: notes)
        (answer.map (fun _ => ()) :: outcomes)
  | hopeless {failure : CacheError} {items : List Item} {notes : List Note}
      {outcomes : List (Except CacheError Unit)} (rest : Attempted items notes outcomes) :
      Attempted (.hopeless failure :: items) notes (.error failure :: outcomes)

/-- What was asked is what the items ask. -/
theorem Attempted.calls {items : List Item} {notes : List Note}
    {outcomes : List (Except CacheError Unit)} (attempted : Attempted items notes outcomes) :
    notes.map Note.call = items.filterMap Item.call? := by
  induction attempted with
  | nil => rfl
  | ask rest ih => exact congrArg (_ :: ·) ih
  | hopeless rest ih => exact ih

/-! ### Trying all items -/

/-- **A program that tries all items**, whatever it is answered. -/
structure TriesAll (program : Program (Except CacheError Unit)) (items : List Item) : Prop where
  /-- Every item is attempted once and in order, and nothing else is asked.  The result is a success if
  all outcomes are, and otherwise the first failure. -/
  tried : ∀ {σ : Type} (answer : (call : Call) → σ → call.Answer × σ) (worker : Nat)
    (clock : σ → Nat) (s : σ), ∃ outcomes,
      Attempted items (program.notes worker clock answer s) outcomes ∧
      ((program.run answer s).1 = .ok () ↔ ∀ outcome ∈ outcomes, outcome = .ok ()) ∧
      ∀ failure, (program.run answer s).1 = .error failure ↔
        ∃ front back, outcomes = front ++ .error failure :: back ∧
          ∀ outcome ∈ front, outcome = .ok ()
  /-- Each backend is as if its own items had been attempted alone. -/
  alone : ∀ {σ : Type} (answer : (call : Call) → σ → call.Answer × σ) {backend : Nat}
    {same : σ → σ → Prop}, Secluded answer backend same → ∀ {s s' : σ}, same s s' →
      same (program.run answer s).2 (Call.askAll answer (Item.callsTo backend items) s')
  /-- So is each backend of a deployment, if it does not share the wire. -/
  alone_deployed : ∀ {deployment : Deployment} {backend : Nat}, deployment.Unshared backend →
    Deployment.SameBackend backend (deployment.run program).2
      (Call.askAll Deployment.answer (Item.callsTo backend items) deployment)
  /-- So is each backend that has a wire of its own. -/
  alone_wired : ∀ (wired : Wired) (backend : Nat),
    Wired.SameBackend backend (program.run Wired.answer wired).2
      (Call.askAll Wired.answer (Item.callsTo backend items) wired)

/-- A sequence of parts attempts the items of these parts. -/
theorem attempted_sequence {σ : Type} (answer : (call : Call) → σ → call.Answer × σ) (worker : Nat)
    (clock : σ → Nat) (items : List Item) (s : σ) :
    Attempted items ((Program.sequence (items.map Item.program)).notes worker clock answer s)
      ((Program.sequence (items.map Item.program)).run answer s).1 := by
  induction items generalizing s with
  | nil => exact .nil
  | cons item items ih =>
      rw [List.map_cons, Program.sequence, Program.notes_bind, Program.run_bind, Program.notes_bind,
        Program.run_bind]
      have rest := ih (item.program.run answer s).2
      -- To put the outcomes together asks nothing more.
      rw [← List.append_nil (Program.notes worker clock answer _ _)] at rest
      cases item with
      | ask backend context op => exact .ask rest
      | hopeless failure => exact .hopeless rest

/-- **All items are tried** where all their parts are attempted. -/
theorem triesAll_attemptAll (items : List Item) :
    TriesAll (Program.attemptAll (items.map Item.program)) items := by
  have alone {σ : Type} (answer : (call : Call) → σ → call.Answer × σ) {backend : Nat}
      {same : σ → σ → Prop} (secluded : Secluded answer backend same) {s s' : σ}
      (start : same s s') : same ((Program.attemptAll (items.map Item.program)).run answer s).2
        (Call.askAll answer (Item.callsTo backend items) s') := by
    rw [Program.attemptAll, Program.run_bind, Program.run, Program.run_snd_eq_askAll 0 fun _ => 0,
      (attempted_sequence answer 0 (fun _ => 0) items s).calls]
    exact secluded.askAll Item.operations_of_items start
  refine ⟨fun answer worker clock s =>
    ⟨((Program.sequence (items.map Item.program)).run answer s).1, ?_, ?_, fun failure => ?_⟩,
    alone, fun unshared => ?_, fun wired backend => ?_⟩
  · rw [Program.attemptAll, Program.notes_bind, Program.notes, List.append_nil]
    exact attempted_sequence answer worker clock items s
  · rw [Program.attemptAll, Program.run_bind]
    exact firstFailure_eq_ok_iff
  · rw [Program.attemptAll, Program.run_bind]
    exact firstFailure_eq_error_iff
  · exact (alone Deployment.answer (Deployment.secluded _) ⟨.refl _ _, unshared⟩).1
  · exact alone Wired.answer (Wired.secluded backend) (Deployment.SameBackend.refl _ _)

/-! ### The work of the library -/

/-- Success or failure is all that an answer without a value tells. -/
theorem Program.forget_unit (program : Program (Except CacheError Unit)) :
    program.forget = program := by
  refine Eq.trans (congrArg program.bind (funext fun result => ?_)) program.bind_pure
  cases result <;> rfl

/-- What is tried when keys and patterns are forgotten: first all keys, then all patterns. -/
def EntityCache.forgetItems (cache : EntityCache) (context : Context) (keys patterns : List Bytes) :
    List Item :=
  (keys.map fun key => .ask cache.backend.id context (.delete key))
    ++ patterns.map fun pattern => .ask cache.backend.id context (.invalidate pattern)

theorem EntityCache.forgetAll_eq (cache : EntityCache) (context : Context)
    (keys patterns : List Bytes) :
    cache.forgetAll context keys patterns =
      Program.attemptAll ((cache.forgetItems context keys patterns).map Item.program) := by
  rw [forgetAll, forgetItems, List.map_append, List.map_map, List.map_map]
  refine congrArg (fun parts => Program.attemptAll (parts ++ _)) (List.map_congr_left fun key _ => ?_)
  exact (Program.forget_unit _).symm

namespace Registry

/-- What is tried when a value is written through a chain: a write for every name, or, for a name that is
not registered, a failure. -/
def writeItems (registry : Registry) (context : Context) (names : List Bytes) (key value : Bytes)
    (ttl : Duration) : List Item :=
  names.map fun name =>
    match registry.backends.find? name with
    | some backend => .ask backend.id context (.set key value ttl)
    | none => .hopeless (.notFound (utf8 "cache '" ++ name ++ utf8 "'"))

theorem writeThrough_eq (registry : Registry) (context : Context) (names : List Bytes)
    (key value : Bytes) (ttl : Duration) :
    registry.writeThrough context names key value ttl =
      Program.attemptAll ((registry.writeItems context names key value ttl).map Item.program) := by
  rw [writeThrough, writeItems, List.map_map]
  refine congrArg Program.attemptAll (List.map_congr_left fun name _ => ?_)
  unfold find
  dsimp only [Function.comp_apply]
  cases registry.backends.find? name with
  | none => rfl
  | some backend => exact (Program.forget_unit _).symm

/-- What is tried when all backends are closed: to close each of them. -/
def closeItems (registry : Registry) : List Item :=
  registry.backends.pairs.map fun pair => .ask pair.2.id .background .close

theorem closeAll_eq (registry : Registry) :
    registry.closeAll = Program.attemptAll (registry.closeItems.map Item.program) := by
  rw [closeAll, closeItems, List.map_map]
  exact congrArg Program.attemptAll
    (List.map_congr_left fun pair _ => (Program.forget_unit _).symm)

end Registry

/-- **Work in bulk** tries all its items: when keys and patterns are forgotten, when a value is written
through a chain, and when all backends of a registry are closed, each of them once. -/
theorem tries_all :
    (∀ (cache : EntityCache) (context : Context) (keys patterns : List Bytes),
      TriesAll (cache.forgetAll context keys patterns) (cache.forgetItems context keys patterns)) ∧
    (∀ (registry : Registry) (context : Context) (names : List Bytes) (key value : Bytes)
      (ttl : Duration), TriesAll (registry.writeThrough context names key value ttl)
        (registry.writeItems context names key value ttl)) ∧
    ∀ registry : Registry, TriesAll registry.closeAll registry.closeItems ∧
      registry.backends.keys.Nodup ∧
      ∀ name backend,
        (name, backend) ∈ registry.backends.pairs ↔ registry.find name = .ok backend := by
  refine ⟨fun cache context keys patterns => ?_, fun registry context names key value ttl => ?_,
    fun registry => ⟨?_, registry.backends.distinct, fun name backend => ?_⟩⟩
  · rw [cache.forgetAll_eq]
    exact triesAll_attemptAll _
  · rw [registry.writeThrough_eq]
    exact triesAll_attemptAll _
  · rw [registry.closeAll_eq]
    exact triesAll_attemptAll _
  · rw [Registry.find_eq_ok_iff, Table.find?_eq_some_iff]

/-- In these surroundings, the first backend of a deployment fails to close. -/
def stuck : (call : Call) → Deployment → call.Answer × Deployment
  | .perform 0 _ .close, deployment => (.error (.unavailable (utf8 "stuck")), deployment)
  | call, deployment => Deployment.answer call deployment

/-- The other one is closed all the same. -/
example :
    let first := (Deployment.start 0).addLocal .standard Sweeper.standardInterval
    let second := first.2.addLocal .standard Sweeper.standardInterval
    let registry := ((Registry.empty .standard).register (utf8 "b") second.1).register (utf8 "a") first.1
    let closed := registry.closeAll.run stuck second.2
    closed.1 = .error (.unavailable (utf8 "stuck")) ∧
      (closed.2.perform second.1.id .background (.has (utf8 "k"))).1 = .error .closed := by
  exact ⟨by with_unfolding_all rfl, by with_unfolding_all rfl⟩

end TimedCache
