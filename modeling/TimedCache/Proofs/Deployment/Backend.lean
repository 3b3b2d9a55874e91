import TimedCache.Deployment.Basic
import TimedCache.Proofs.Program
import TimedCache.Proofs.Store.Failure
import TimedCache.Proofs.Store.Removal

/-!
# One backend of a deployment

What programs, the passing of time and sweeps do to **one store in the process**, whatever else
there is in the deployment.

An operation of the backend itself is an operation of its store (`store?_perform`); one of another
backend leaves the store alone (`store?_perform_of_ne`).  Sweepers only remove.  So a program that
has the backend perform only what puts nothing into the store (`Call.Spares`) only removes from it
(`onlyRemoves_run`).
-/

namespace TimedCache

namespace Deployment

/-- The store behind a backend that keeps its entries in the process. -/
def store? (deployment : Deployment) (backend : Nat) : Option Store :=
  match deployment.engines[backend]? with
  | some (.inProcess store _) => some store
  | _ => none

/-- The engine of a backend makes a pass over its expired entries. -/
def sweep (deployment : Deployment) (backend : Nat) : Deployment :=
  { deployment with
    engines := deployment.engines.modify backend fun
      | .inProcess store sweeper => .inProcess (store.sweep deployment.wall) sweeper
      | .onServer client => .onServer client }

variable {deployment : Deployment} {backend : Nat} {store : Store}

/-- A store in the process has its engine. -/
theorem store?_eq_some_iff :
    deployment.store? backend = some store ↔
      ∃ sweeper, deployment.engines[backend]? = some (.inProcess store sweeper) := by
  unfold store?
  constructor
  · intro here
    split at here
    next sweeper engine =>
      cases here
      exact ⟨sweeper, engine⟩
    next => cases here
  · rintro ⟨sweeper, engine⟩
    rw [engine]

/-! ### Operations -/

/-- The answer to an operation, and behind it the engine and the wire, are what the engine makes of it. -/
theorem perform_of_engine {engine : Engine} (here : deployment.engines[backend]? = some engine)
    (context : Context) (op : Operation) :
    let performed := engine.perform deployment.wall (deployment.standing context) deployment.wire op
    (deployment.perform backend context op).1 = performed.1 ∧
      (deployment.perform backend context op).2.engines[backend]? = some performed.2.1 ∧
      (deployment.perform backend context op).2.wire = performed.2.2 := by
  obtain ⟨bound, -⟩ := Array.getElem?_eq_some_iff.mp here
  unfold perform
  rw [here]
  exact ⟨rfl, Array.getElem?_setIfInBounds_self_of_lt bound, rfl⟩

/-- Behind an operation, the engine holds what the operation leaves in its store. -/
theorem perform_inProcess {sweeper : Sweeper}
    (engine : deployment.engines[backend]? = some (.inProcess store sweeper)) (context : Context)
    (op : Operation) :
    (deployment.perform backend context op).1 =
        (store.perform deployment.wall (deployment.standing context) op).1 ∧
      (deployment.perform backend context op).2.engines[backend]? = some (.inProcess
        (store.perform deployment.wall (deployment.standing context) op).2 sweeper) := by
  obtain ⟨answer, there, -⟩ := perform_of_engine engine context op
  exact ⟨answer, there⟩

/-- Operations leave the other engines alone. -/
theorem engines_perform_of_ne {other : Nat} (ne : other ≠ backend) (context : Context)
    (op : Operation) :
    (deployment.perform other context op).2.engines[backend]? = deployment.engines[backend]? := by
  unfold perform
  cases deployment.engines[other]? with
  | none => rfl
  | some engine => exact Array.getElem?_setIfInBounds_ne ne

/-- Operations leave the clocks and the tokens alone. -/
theorem kept_perform (deployment : Deployment) (backend : Nat) (context : Context)
    (op : Operation) :
    (deployment.perform backend context op).2.epoch = deployment.epoch ∧
      (deployment.perform backend context op).2.elapsed = deployment.elapsed ∧
      (deployment.perform backend context op).2.tokens = deployment.tokens := by
  unfold perform
  cases deployment.engines[backend]? <;> exact ⟨rfl, rfl, rfl⟩

/-- Operations leave the clocks alone. -/
theorem clock_perform (deployment : Deployment) (backend : Nat) (context : Context)
    (op : Operation) :
    (deployment.perform backend context op).2.elapsed = deployment.elapsed ∧
      (deployment.perform backend context op).2.wallAt = deployment.wallAt := by
  obtain ⟨epoch, elapsed, -⟩ := deployment.kept_perform backend context op
  refine ⟨elapsed, funext fun reading => ?_⟩
  rw [wallAt, wallAt, epoch]

theorem wall_perform (deployment : Deployment) (backend : Nat) (context : Context)
    (op : Operation) : (deployment.perform backend context op).2.wall = deployment.wall := by
  obtain ⟨elapsed, wallAt⟩ := deployment.clock_perform backend context op
  rw [wall, elapsed, wallAt]
  rfl

/-- **An operation of a backend** is an operation of its store. -/
theorem store?_perform (here : deployment.store? backend = some store) (context : Context)
    (op : Operation) :
    (deployment.perform backend context op).1 =
        (store.perform deployment.wall (deployment.standing context) op).1 ∧
      (deployment.perform backend context op).2.store? backend =
        some (store.perform deployment.wall (deployment.standing context) op).2 ∧
      (deployment.perform backend context op).2.wall = deployment.wall := by
  obtain ⟨sweeper, engine⟩ := store?_eq_some_iff.mp here
  obtain ⟨answer, there⟩ := perform_inProcess engine context op
  exact ⟨answer, store?_eq_some_iff.mpr ⟨sweeper, there⟩, deployment.wall_perform backend context op⟩

/-- An operation of another backend leaves the store alone. -/
theorem store?_perform_of_ne {other : Nat} (ne : other ≠ backend) (context : Context)
    (op : Operation) :
    (deployment.perform other context op).2.store? backend = deployment.store? backend := by
  unfold store?
  rw [engines_perform_of_ne ne]

/-- Operations leave the standing of every context alone. -/
theorem standing_perform (deployment : Deployment) (backend : Nat) (context : Context)
    (op : Operation) :
    (deployment.perform backend context op).2.standing = deployment.standing := by
  obtain ⟨-, elapsed, tokens⟩ := deployment.kept_perform backend context op
  funext other
  rw [standing, standing, elapsed, tokens]

/-- At the beginning of a limited time, work may go on. -/
theorem standing_timeoutAt (deployment : Deployment) {timeout : Duration} (pos : 0 < timeout.nanos) :
    deployment.standing (.timeoutAt deployment.elapsed timeout) = .live := by
  refine TokenForest.standing_of_ahead rfl fun deadline ends => ?_
  cases ends
  exact Nat.lt_add_of_pos_right pos

/-- Going on after an operation on an open store, while work may go on. -/
theorem run_perform (here : deployment.store? backend = some store)
    (isOpen : store.isOpen = true) {context : Context}
    (live : deployment.standing context = .live) (op : Operation) :
    ∃ after : Deployment, (∀ {β : Type} (next : op.Answer → Program β),
        deployment.run (Program.perform backend context op >>= next) =
          after.run (next (store.carryOut deployment.wall op).1)) ∧
      after.store? backend = some (store.carryOut deployment.wall op).2 ∧
      after.wall = deployment.wall ∧ after.standing = deployment.standing := by
  have performed := store?_perform here context op
  rw [live, Store.perform_of_open isOpen] at performed
  obtain ⟨answer, there, wall⟩ := performed
  refine ⟨_, fun next => ?_, there, wall, deployment.standing_perform backend context op⟩
  rw [← answer]
  rfl

/-! ### Sweeps and the passing of time -/

/-- While time passes, an engine makes the passes that are due. -/
theorem engines_advanceTo (deployment : Deployment) (later backend : Nat) :
    (deployment.advanceTo later).engines[backend]? =
      deployment.engines[backend]?.map (Engine.catchUp deployment.wallAt later) :=
  Array.getElem?_map

/-- The passes that are due are made on the store. -/
theorem store?_advanceTo (here : deployment.store? backend = some store) (later : Nat) :
    ∃ sweeper : Sweeper, (deployment.advanceTo later).store? backend =
      some (sweeper.catchUp deployment.wallAt later store).2 := by
  obtain ⟨sweeper, engine⟩ := store?_eq_some_iff.mp here
  refine ⟨sweeper, store?_eq_some_iff.mpr ⟨(sweeper.catchUp deployment.wallAt later store).1, ?_⟩⟩
  rw [engines_advanceTo, engine]
  rfl

/-- **While time passes** sweepers only remove. -/
theorem onlyRemoves_advanceTo (here : deployment.store? backend = some store) (later : Nat) :
    ∃ after, (deployment.advanceTo later).store? backend = some after ∧
      store.OnlyRemoves after := by
  obtain ⟨sweeper, there⟩ := store?_advanceTo here later
  exact ⟨_, there, Store.catchUp_onlyRemoves _ later sweeper store⟩

/-- A sweep changes one engine, if that is a store. -/
theorem engines_sweep (deployment : Deployment) (other backend : Nat) {sweeper : Sweeper}
    (engine : deployment.engines[backend]? = some (.inProcess store sweeper)) :
    (deployment.sweep other).engines[backend]? = some (.inProcess
      (if other = backend then store.sweep deployment.wall else store) sweeper) := by
  unfold sweep
  rw [Array.getElem?_modify, engine]
  split <;> rfl

/-- A sweep of the backend is a sweep of its store. -/
theorem store?_sweep (here : deployment.store? backend = some store) :
    (deployment.sweep backend).store? backend = some (store.sweep deployment.wall) := by
  obtain ⟨sweeper, engine⟩ := store?_eq_some_iff.mp here
  refine store?_eq_some_iff.mpr ⟨sweeper, ?_⟩
  rw [deployment.engines_sweep backend backend engine, if_pos rfl]

/-- A sweep of another backend leaves the store alone. -/
theorem store?_sweep_of_ne {other : Nat} (ne : other ≠ backend) :
    (deployment.sweep other).store? backend = deployment.store? backend := by
  unfold sweep store?
  rw [Array.getElem?_modify, if_neg ne]

/-- A sweep of any backend only removes. -/
theorem onlyRemoves_sweep (here : deployment.store? backend = some store) (other : Nat) :
    ∃ after, (deployment.sweep other).store? backend = some after ∧ store.OnlyRemoves after := by
  by_cases same : other = backend
  · subst same
    exact ⟨_, store?_sweep here, store.sweep_onlyRemoves deployment.wall⟩
  · exact ⟨store, (store?_sweep_of_ne same).trans here, .refl store⟩

theorem wallAt_mono (deployment : Deployment) {earlier later : Nat} (le : earlier ≤ later) :
    deployment.wallAt earlier ≤ deployment.wallAt later :=
  Nat.add_le_add_left (Nat.div_le_div_right le) _

/-- The wall clock does not go back. -/
theorem wall_le_advanceTo (deployment : Deployment) (later : Nat) :
    deployment.wall ≤ (deployment.advanceTo later).wall :=
  deployment.wallAt_mono (Nat.le_max_left deployment.elapsed later)

/-- **The passing of time is invisible** in the store, but for what expires. -/
theorem alike_advanceTo (here : deployment.store? backend = some store) (later : Nat) :
    ∃ after, (deployment.advanceTo later).store? backend = some after ∧
      Store.Alike (deployment.advanceTo later).wall store after := by
  obtain ⟨sweeper, there⟩ := store?_advanceTo here later
  refine ⟨_, there, Store.catchUp_alike (fun due => ?_) sweeper store⟩
  exact deployment.wallAt_mono (Nat.le_trans due (Nat.le_max_right _ _))

end Deployment

/-! ### Programs -/

/-- Whether a question puts nothing into the store of a backend. -/
def Call.Spares (backend : Nat) : Call → Prop
  | .perform other _ op => other = backend → op.puts = false
  | _ => True

namespace Deployment

variable {deployment : Deployment} {backend : Nat} {store : Store}

/-- A question that spares the store only removes from it. -/
theorem onlyRemoves_answer (here : deployment.store? backend = some store) {call : Call}
    (spares : call.Spares backend) :
    ∃ after, (answer call deployment).2.store? backend = some after ∧ store.OnlyRemoves after := by
  cases call with
  | perform other context op =>
      by_cases same : other = backend
      · subst same
        obtain ⟨-, after, -⟩ := store?_perform here context op
        exact ⟨_, after, store.perform_onlyRemoves _ _ (spares rfl)⟩
      · exact ⟨store, (store?_perform_of_ne same context op).trans here, .refl store⟩
  | wallClock => exact ⟨store, here, .refl store⟩
  | limitedContext timeout => exact ⟨store, here, .refl store⟩
  | ticket counter => exact ⟨store, here, .refl store⟩
  | pause duration => exact onlyRemoves_advanceTo here _

/-- **A program that spares the store** only removes from it. -/
theorem onlyRemoves_run {α : Type} {gives : α → Prop} {program : Program α}
    (always : program.Always (Call.Spares backend) gives)
    (here : deployment.store? backend = some store) :
    gives (deployment.run program).1 ∧
      ∃ after, (deployment.run program).2.store? backend = some after ∧
        store.OnlyRemoves after := by
  let Inv (reached : Deployment) : Prop :=
    ∃ after, reached.store? backend = some after ∧ store.OnlyRemoves after
  have step : ∀ {call reached}, Call.Spares backend call → Inv reached →
      Inv (answer call reached).2 := by
    rintro call reached spares ⟨middle, here, removes⟩
    obtain ⟨after, there, more⟩ := onlyRemoves_answer here spares
    exact ⟨after, there, removes.trans more⟩
  have start : Inv deployment := ⟨store, here, .refl store⟩
  exact always.run step start

/-- A program that asks a backend goes on with the answer. -/
theorem run_asked {α : Type} (deployment : Deployment) (backend : Nat) (context : Context)
    (op : Operation) (next : op.Answer → Program α) :
    deployment.run (.ask (.perform backend context op) next) =
      (deployment.perform backend context op).2.run
        (next (deployment.perform backend context op).1) := rfl

/-- Running on is running the rest in what the first part left. -/
theorem run_bind {α β : Type} (deployment : Deployment) (program : Program α)
    (next : α → Program β) :
    deployment.run (program >>= next) =
      (deployment.run program).2.run (next (deployment.run program).1) :=
  Program.run_bind answer program next deployment

end Deployment

end TimedCache
