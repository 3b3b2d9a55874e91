import TimedCache.Proofs.BulkWork
import TimedCache.Proofs.Store.Invalidation
import TimedCache.ResponseCache.Layer

/-!
# Invalidation after a write

A layer around a handler has the backend remove, after a success, what certain patterns accept.

**To the client the layer is invisible.**  It hands on the response of the handler, whatever becomes of
the invalidations.

**What is asked.**  After any other response the layer asks nothing.  After a success it makes one
context that ends in time, and attempts one invalidation for each pattern, in order.  Failures do not
end that (`InvalidateOnWrite.Follows`).  This is so in any surroundings: of the invalidations, any may
fail.

**There is one exception**, and the layer makes it itself.  If its timeout reaches beyond the clock, there
is no context to be made.  The handler has run by then and may have succeeded, but the request stops: no
invalidation is attempted, and the client gets no response (`InvalidateOnWrite.wrap_beyond_clock`).

**What is removed.**  On an open store in the process, and if the time is neither zero nor beyond the
clock, exactly those entries are removed whose logical keys some pattern accepts
(`InvalidateOnWrite.Clears`).  Patterns may overlap; what one of them has removed, the others do not find
any more.

Nothing is assumed of the handler.  It may use the backend itself, and what counts is the store that it
has left.

## Main Definitions

* `InvalidateOnWrite.items` — the invalidations of a layer
* `InvalidateOnWrite.made` — the context that is made for them
* `InvalidateOnWrite.Follows` — what a layer asks behind the handler
* `InvalidateOnWrite.Clears` — what a layer removes from a store
-/

namespace TimedCache

open Http

/-- A logical key is in the store if something is filed under its full key. -/
theorem Store.mem_logicalKeys_iff {store : Store} {key : Bytes} :
    key ∈ store.logicalKeys ↔
      (store.entries.find? (store.options.fullKey key)).isSome = true := by
  rw [logicalKeys, List.mem_filterMap, ← Table.mem_keys_iff]
  constructor
  · rintro ⟨full, mem, stripped⟩
    obtain rfl : full = store.options.fullKey key := Bytes.strip?_eq_some_iff.mp stripped
    exact mem
  · exact fun mem => ⟨_, mem, store.options.logicalKey?_fullKey key⟩

namespace InvalidateOnWrite

variable (layer : InvalidateOnWrite) (handler : Handler) (request : Request)

/-! ### What is asked -/

/-- The invalidations of a layer: one for each pattern, all under one context. -/
def items (context : Context) : List Item :=
  layer.patterns.map fun pattern => .ask layer.backend.id context (.invalidate pattern)

/-- The invalidations are a sequence of parts, and what they come to is dropped. -/
theorem invalidateAll_eq (context : Context) (patterns : List Bytes) :
    layer.invalidateAll context patterns =
      (Program.sequence ((patterns.map fun pattern =>
        Item.ask layer.backend.id context (.invalidate pattern)).map Item.program)).bind
          fun _ => .done () := by
  induction patterns with
  | nil => rfl
  | cons pattern patterns ih =>
      have rest : layer.invalidateAll context (pattern :: patterns) =
          .ask (.perform layer.backend.id context (.invalidate pattern)) fun _ =>
            layer.invalidateAll context patterns := rfl
      rw [rest, ih, List.map_cons, List.map_cons, Program.sequence, Program.bind_assoc]
      simp only [Program.bind_assoc]
      rfl

/-- What a layer does under a context once the handler has succeeded. -/
def under (response : Response) (context : Context) : Program Response :=
  if context.isOnClock then
    (layer.invalidateAll context layer.patterns).bind fun _ => .done response
  else .done .missing

theorem under_of_onClock {context : Context} (onClock : context.isOnClock = true)
    (response : Response) : layer.under response context =
      (layer.invalidateAll context layer.patterns).bind fun _ => .done response :=
  if_pos onClock

theorem under_of_beyondClock {context : Context} (beyond : context.isOnClock = false)
    (response : Response) : layer.under response context = .done .missing :=
  if_neg (Bool.not_eq_true _ ▸ beyond)

/-- What a layer goes on with, behind the handler. -/
def afterwards (response : Response) : Program Response :=
  if isSuccess response.status then .ask (.limitedContext layer.backendTimeout) (layer.under response)
  else .done response

theorem afterwards_of_success {response : Response} (success : isSuccess response.status = true) :
    layer.afterwards response = .ask (.limitedContext layer.backendTimeout) (layer.under response) :=
  if_pos success

theorem afterwards_of_failure {response : Response} (failure : isSuccess response.status = false) :
    layer.afterwards response = .done response :=
  if_neg (Bool.not_eq_true _ ▸ failure)

theorem wrap_eq : layer.wrap handler request = (handler request).bind layer.afterwards := by
  refine congrArg (handler request).bind (funext fun response => ?_)
  unfold afterwards
  split
  · refine congrArg (Program.ask _) (funext fun context => ?_)
    dsimp only [Program.bind_done]
    unfold under
    split <;> rfl
  · rfl

section Surroundings

variable {σ : Type} (answer : (call : Call) → σ → call.Answer × σ) (worker : Nat) (clock : σ → Nat)
  (s : σ)

/-- The invalidations are attempted, and nothing else is asked. -/
theorem attempted_invalidateAll (context : Context) :
    ∃ outcomes, Attempted (layer.items context)
      ((layer.invalidateAll context layer.patterns).notes worker clock answer s) outcomes := by
  refine ⟨((Program.sequence ((layer.items context).map Item.program)).run answer s).1, ?_⟩
  rw [invalidateAll_eq, Program.notes_bind, Program.notes, List.append_nil]
  exact attempted_sequence answer worker clock (layer.items context) s

/-- The context that the surroundings make for the invalidations, and what they are like after that. -/
def made : Context × σ := answer (.limitedContext layer.backendTimeout) s

/-- The note of that. -/
def makingNote : Note :=
  ⟨worker, clock s, .limitedContext layer.backendTimeout, (layer.made answer s).1⟩

variable {response : Response}

/-- After a success, the layer goes on under the context that is made. -/
theorem run_afterwards (success : isSuccess response.status = true) :
    (layer.afterwards response).run answer s =
      (layer.under response (layer.made answer s).1).run answer (layer.made answer s).2 := by
  rw [afterwards_of_success layer success]
  rfl

theorem notes_afterwards (success : isSuccess response.status = true) :
    (layer.afterwards response).notes worker clock answer s =
      layer.makingNote answer worker clock s ::
        (layer.under response (layer.made answer s).1).notes worker clock answer
          (layer.made answer s).2 := by
  rw [afterwards_of_success layer success]
  rfl

/-- **After a success, with a context to be made**, the invalidations are attempted, and the response is
handed on. -/
theorem afterwards_of_onClock (success : isSuccess response.status = true)
    (onClock : (layer.made answer s).1.isOnClock = true) :
    ((layer.afterwards response).run answer s).1 = response ∧
      ∃ notes outcomes, (layer.afterwards response).notes worker clock answer s =
          layer.makingNote answer worker clock s :: notes ∧
        Attempted (layer.items (layer.made answer s).1) notes outcomes := by
  obtain ⟨outcomes, attempted⟩ := layer.attempted_invalidateAll answer worker clock
    (layer.made answer s).2 (layer.made answer s).1
  refine ⟨?_, _, outcomes, ?_, attempted⟩
  · rw [run_afterwards layer answer s success, under_of_onClock layer onClock, Program.run_bind]
    rfl
  · rw [notes_afterwards layer answer worker clock s success, under_of_onClock layer onClock,
      Program.notes_bind, Program.notes, List.append_nil]

/-- **After a success, without a context to be made**, the request stops. -/
theorem afterwards_of_beyondClock (success : isSuccess response.status = true)
    (beyond : (layer.made answer s).1.isOnClock = false) :
    ((layer.afterwards response).run answer s).1 = .missing ∧
      (layer.afterwards response).notes worker clock answer s =
        [layer.makingNote answer worker clock s] := by
  constructor
  · rw [run_afterwards layer answer s success, under_of_beyondClock layer beyond]
    rfl
  · rw [notes_afterwards layer answer worker clock s success, under_of_beyondClock layer beyond]
    rfl

/-- **What a layer does** in some surroundings, whatever these answer. -/
structure Follows : Prop where
  /-- The response is that of the handler, unless it is a success and the clock cannot show the deadline
  of the invalidations. -/
  response :
    let handled := (handler request).run answer s
    (isSuccess handled.1.status = true → (layer.made answer handled.2).1.isOnClock = true) →
      ((layer.wrap handler request).run answer s).1 = handled.1
  /-- After a response that is no success, nothing is asked, and everything stays as the handler has left
  it. -/
  idle : isSuccess ((handler request).run answer s).1.status = false →
    (layer.wrap handler request).notes worker clock answer s =
        (handler request).notes worker clock answer s ∧
      ((layer.wrap handler request).run answer s).2 = ((handler request).run answer s).2
  /-- After a success, a context is made, and every invalidation is attempted once and in order. -/
  tries :
    let handled := (handler request).run answer s
    isSuccess handled.1.status = true → (layer.made answer handled.2).1.isOnClock = true →
      ∃ notes outcomes,
        (layer.wrap handler request).notes worker clock answer s =
          (handler request).notes worker clock answer s ++
            layer.makingNote answer worker clock handled.2 :: notes ∧
        Attempted (layer.items (layer.made answer handled.2).1) notes outcomes
  /-- Without a context, a success is followed by nothing, and there is no response. -/
  stops :
    let handled := (handler request).run answer s
    isSuccess handled.1.status = true → (layer.made answer handled.2).1.isOnClock = false →
      ((layer.wrap handler request).run answer s).1 = .missing ∧
        (layer.wrap handler request).notes worker clock answer s =
          (handler request).notes worker clock answer s ++
            [layer.makingNote answer worker clock handled.2]

/-- **In any surroundings**, the layer follows the handler. -/
theorem follows : layer.Follows handler request answer worker clock s where
  response := by
    intro handled reached
    rw [wrap_eq, Program.run_bind]
    cases success : isSuccess handled.1.status with
    | false =>
        rw [afterwards_of_failure layer success]
        rfl
    | true => exact (layer.afterwards_of_onClock answer worker clock _ success (reached success)).1
  idle failure := by
    rw [wrap_eq, Program.notes_bind, Program.run_bind, afterwards_of_failure layer failure,
      Program.notes, List.append_nil]
    exact ⟨rfl, rfl⟩
  tries := by
    intro handled success onClock
    obtain ⟨-, notes, outcomes, noted, attempted⟩ :=
      layer.afterwards_of_onClock answer worker clock _ success onClock
    refine ⟨notes, outcomes, ?_, attempted⟩
    rw [wrap_eq, Program.notes_bind, noted]
  stops := by
    intro handled success beyond
    obtain ⟨missing, noted⟩ := layer.afterwards_of_beyondClock answer worker clock _ success beyond
    rw [wrap_eq, Program.run_bind, Program.notes_bind, noted]
    exact ⟨missing, rfl⟩

end Surroundings

/-! ### What is removed -/

/-- **What a layer removes** from a store. -/
structure Clears (before after : Store) : Prop where
  /-- Exactly the entries are lost whose logical keys some pattern accepts; the others stay with their
  values and their expiries. -/
  loses : before.LosesExactly
    (fun key => ∃ pattern ∈ layer.patterns, Glob.accepts pattern key = true) after
  /-- No pattern accepts a logical key that is left. -/
  clean : ∀ key ∈ after.logicalKeys, ∀ pattern ∈ layer.patterns, Glob.accepts pattern key = false
  /-- A logical key that no pattern accepts has what it had. -/
  kept : ∀ key, (∀ pattern ∈ layer.patterns, Glob.accepts pattern key = false) →
    after.entries.find? (after.options.fullKey key) =
      before.entries.find? (before.options.fullKey key)

/-- The rest follows from what is lost. -/
theorem clears_of_losesExactly {before after : Store}
    (loses : before.LosesExactly
      (fun key => ∃ pattern ∈ layer.patterns, Glob.accepts pattern key = true) after) :
    layer.Clears before after where
  loses := loses
  clean key mem pattern listed := by
    rw [← Bool.not_eq_true]
    intro accepts
    rw [Store.mem_logicalKeys_iff, loses.find?_eq_none ⟨pattern, listed, accepts⟩] at mem
    cases mem
  kept key spared := by
    refine Option.ext fun entry => ?_
    rw [loses.options, loses.kept, and_iff_left_iff_imp]
    rintro - other filed ⟨pattern, listed, accepts⟩
    obtain rfl := before.options.fullKey_inj.mp filed
    rw [spared pattern listed] at accepts
    cases accepts

/-- **Invalidations one after another** remove from an open store what any of the patterns accepts. -/
theorem run_invalidateAll {deployment : Deployment} {store : Store}
    (here : deployment.store? layer.backend.id = some store) (isOpen : store.isOpen = true)
    {context : Context} (live : deployment.standing context = .live) (patterns : List Bytes) :
    ∃ after, (deployment.run (layer.invalidateAll context patterns)).2.store? layer.backend.id =
        some after ∧
      store.LosesExactly (fun key => ∃ pattern ∈ patterns, Glob.accepts pattern key = true) after := by
  induction patterns generalizing deployment store with
  | nil => exact ⟨store, here, (Store.LosesExactly.refl store).congr fun key => by simp⟩
  | cons pattern patterns ih =>
      obtain ⟨middle, goesOn, there, -, standing⟩ :=
        Deployment.run_perform here isOpen live (.invalidate pattern)
      have removal : (Operation.invalidate pattern).isRemoval = true := rfl
      obtain ⟨-, first⟩ := store.carryOut_removal deployment.wall removal
      obtain ⟨after, left, rest⟩ := ih there (first.isOpen.trans isOpen) (standing ▸ live)
      refine ⟨after, ?_, (first.trans rest).congr fun key => ?_⟩
      · rw [invalidateAll, goesOn]
        exact left
      · rw [List.exists_mem_cons_iff]
        rfl

/-- After a success, on an open store, and if there is time, but not too much. -/
theorem clears_afterwards {deployment : Deployment} {store : Store}
    (here : deployment.store? layer.backend.id = some store) (isOpen : store.isOpen = true)
    (time : 0 < layer.backendTimeout.nanos)
    (onClock : (Context.timeoutAt deployment.elapsed layer.backendTimeout).isOnClock = true)
    {response : Response} (success : isSuccess response.status = true) :
    ∃ after, (deployment.run (layer.afterwards response)).2.store? layer.backend.id = some after ∧
      layer.Clears store after := by
  let context := Context.timeoutAt deployment.elapsed layer.backendTimeout
  have ended : deployment.run (layer.afterwards response) =
      (response, (deployment.run (layer.invalidateAll context layer.patterns)).2) := by
    rw [Deployment.run, run_afterwards layer Deployment.answer deployment success]
    exact (congrArg (Program.run Deployment.answer · deployment)
      (layer.under_of_onClock onClock response)).trans (Program.run_bind Deployment.answer _ _ deployment)
  obtain ⟨after, left, loses⟩ := layer.run_invalidateAll here isOpen
    (deployment.standing_timeoutAt time) layer.patterns
  rw [ended]
  exact ⟨after, left, layer.clears_of_losesExactly loses⟩

/-- **Invalidation after a write.**  In any surroundings the layer hands on the response of the handler,
and asks for every invalidation after a success, and for nothing after any other response; only if the
clock cannot show the deadline of the invalidations, a success is followed by nothing.  On an open store
in the process that answers in time, it removes what the patterns accept and nothing else. -/
theorem wrap_invalidates :
    (∀ {σ : Type} (answer : (call : Call) → σ → call.Answer × σ) (worker : Nat) (clock : σ → Nat)
      (s : σ), layer.Follows handler request answer worker clock s) ∧
    ∀ (deployment : Deployment) (store : Store),
      let handled := deployment.run (handler request)
      isSuccess handled.1.status = true → 0 < layer.backendTimeout.nanos →
        (Context.timeoutAt handled.2.elapsed layer.backendTimeout).isOnClock = true →
          handled.2.store? layer.backend.id = some store → store.isOpen = true →
            ∃ after,
              (deployment.run (layer.wrap handler request)).2.store? layer.backend.id = some after ∧
              layer.Clears store after := by
  refine ⟨fun answer worker clock s => layer.follows handler request answer worker clock s, ?_⟩
  intro deployment store handled success time onClock here isOpen
  have ended : deployment.run (layer.wrap handler request) =
      handled.2.run (layer.afterwards handled.1) := by
    rw [wrap_eq]
    exact deployment.run_bind (handler request) layer.afterwards
  rw [ended]
  exact layer.clears_afterwards here isOpen time onClock success

/-- A layer whose patterns overlap. -/
def sampleLayer : InvalidateOnWrite :=
  ⟨((Deployment.start 0).addLocal .standard Sweeper.standardInterval).1,
    [utf8 "items:*", utf8 "*:1", utf8 "["], .ofSecs 1⟩

/-- The store of its backend has three entries. -/
def sampleStore : Store :=
  (Store.fresh .standard).writeMany 0 (.ofSecs 60)
    [(utf8 "items:1", utf8 "a"), (utf8 "users:1", utf8 "b"), (utf8 "users:2", utf8 "c")]

/-- The deployment with that store. -/
def sampleDeployment : Deployment :=
  { Deployment.start 0 with engines := #[.inProcess sampleStore (.start 0 Sweeper.standardInterval)] }

/-- A handler that succeeds. -/
def sampleHandler : Handler := fun _ => .done ⟨201, [], .whole (utf8 "done")⟩

/-- After a success, one of the entries is left. -/
theorem wrap_invalidates_sampleStore :
    let ended := sampleDeployment.run (sampleLayer.wrap sampleHandler default)
    (sampleDeployment.run (sampleHandler default)).2.store? sampleLayer.backend.id =
        some sampleStore ∧
      sampleStore.isOpen = true ∧ 0 < sampleLayer.backendTimeout.nanos ∧
      (Context.timeoutAt sampleDeployment.elapsed sampleLayer.backendTimeout).isOnClock = true ∧
      ended.1 = ⟨201, [], .whole (utf8 "done")⟩ ∧
      ∃ after, ended.2.store? sampleLayer.backend.id = some after ∧
        sampleLayer.Clears sampleStore after ∧ after.logicalKeys = [utf8 "users:2"] := by
  intro ended
  have here : (sampleDeployment.run (sampleHandler default)).2.store? sampleLayer.backend.id =
      some sampleStore := rfl
  have isOpen : sampleStore.isOpen = true := rfl
  have time : 0 < sampleLayer.backendTimeout.nanos := by decide
  have onClock : (Context.timeoutAt sampleDeployment.elapsed sampleLayer.backendTimeout).isOnClock =
      true := Context.isOnClock_timeoutAt_iff.mpr (by decide)
  obtain ⟨follows, clears⟩ := wrap_invalidates sampleLayer sampleHandler default
  obtain ⟨after, left, clears⟩ := clears sampleDeployment sampleStore rfl time onClock here isOpen
  have response := (follows Deployment.answer 0 Deployment.wall sampleDeployment).response
    fun _ => onClock
  have keys : (ended.2.store? sampleLayer.backend.id).map Store.logicalKeys =
      some [utf8 "users:2"] := by decide +kernel
  rw [left] at keys
  exact ⟨here, isOpen, time, onClock, response, after, left, clears, Option.some.inj keys⟩

/-- **With the longest timeout in whole seconds**, the same handler succeeds, but there is no response,
and nothing is removed, although a pattern accepts the key of an entry. -/
theorem wrap_beyond_clock :
    let layer := { sampleLayer with backendTimeout := .ofSecs 18446744073709551615 }
    let handled := sampleDeployment.run (sampleHandler default)
    let ended := sampleDeployment.run (layer.wrap sampleHandler default)
    handled.2.store? layer.backend.id = some sampleStore ∧ sampleStore.isOpen = true ∧
      isSuccess handled.1.status = true ∧ 0 < layer.backendTimeout.nanos ∧
      ended.1 = .missing ∧ ended.1 ≠ handled.1 ∧
      ended.2.store? layer.backend.id = some sampleStore ∧
      utf8 "items:1" ∈ sampleStore.logicalKeys ∧
      utf8 "items:*" ∈ layer.patterns ∧ Glob.accepts (utf8 "items:*") (utf8 "items:1") = true := by
  intro layer handled ended
  have missing : ended.1 = .missing := by decide +kernel
  refine ⟨rfl, rfl, rfl, by decide, missing, ?_, rfl, by decide +kernel, by decide +kernel,
    by decide +kernel⟩
  rw [missing]
  decide +kernel

end InvalidateOnWrite

end TimedCache
