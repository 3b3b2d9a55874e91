import Mathlib.Data.List.Forall2
import TimedCache.Context
import TimedCache.Operation

/-!
# Runs

What a backend goes through is a list of **events**: calls of operations, each under a context of
some standing, the passing of time, and passes of a sweeper.  The clock never goes back, because
time only ever passes.

A **machine** is anything that performs operations and can be swept.  Running it from a clock
reading and a state gives one *turn* for each call: the moment, the state that the call met, and the
answer.  Two machines are compared turn by turn, by a relation between their states that every event
preserves (`Machine.run_forall₂`).

## Main Definitions

* `Event` — what can happen to a backend
* `Machine` — what performs operations and can be swept
* `Turn` — one call of a run
* `Machine.run` — the turns of a run
* `Machine.reach` — the clock and the state behind a run
* `Machine.history` — the stages of a run, one for each event
-/

namespace TimedCache

/-- What can happen to a backend. -/
inductive Event where
  /-- An operation is called under a context of the given standing. -/
  | call (standing : Standing) (op : Operation)
  /-- Some milliseconds pass. -/
  | advance (millis : Nat)
  /-- The sweeper makes a pass. -/
  | sweep

/-- What performs operations and can be swept. -/
structure Machine (σ : Type) where
  perform : σ → (now : Nat) → Standing → (op : Operation) → op.Answer × σ
  sweep : σ → (now : Nat) → σ

/-- One call of a run: the moment, the state it met, and the answer. -/
structure Turn (σ : Type) where
  now : Nat
  standing : Standing
  before : σ
  op : Operation
  answer : op.Answer

variable {σ τ : Type}

namespace Machine

/-- The turns of a run that starts at `now` in a given state. -/
def run (machine : Machine σ) : (now : Nat) → σ → List Event → List (Turn σ)
  | _, _, [] => []
  | now, state, .call standing op :: events =>
    ⟨now, standing, state, op, (machine.perform state now standing op).1⟩ ::
      machine.run now (machine.perform state now standing op).2 events
  | now, state, .advance millis :: events => machine.run (now + millis) state events
  | now, state, .sweep :: events => machine.run now (machine.sweep state now) events

/-- **Runs are compared turn by turn.**  A relation between two states that survives calls, the
passing of time and sweeps relates the states throughout, and what it says about the answers to one
call holds of all of them. -/
theorem run_forall₂ (machine : Machine σ) (other : Machine τ) (Related : Nat → σ → τ → Prop)
    {Agree : Turn σ → Turn τ → Prop}
    (call : ∀ {now s t} (standing : Standing) (op : Operation), Related now s t →
      Agree ⟨now, standing, s, op, (machine.perform s now standing op).1⟩
          ⟨now, standing, t, op, (other.perform t now standing op).1⟩ ∧
        Related now (machine.perform s now standing op).2 (other.perform t now standing op).2)
    (advance : ∀ {now later s t}, now ≤ later → Related now s t → Related later s t)
    (sweep : ∀ {now s t}, Related now s t → Related now (machine.sweep s now) (other.sweep t now))
    {now : Nat} {s : σ} {t : τ} (related : Related now s t) (events : List Event) :
    List.Forall₂ Agree (machine.run now s events) (other.run now t events) := by
  induction events generalizing now s t with
  | nil => exact .nil
  | cons event events ih =>
      cases event with
      | call standing op =>
          obtain ⟨agree, related⟩ := call standing op related
          exact .cons agree (ih related)
      | advance millis => exact ih (advance (Nat.le_add_right now millis) related)
      | sweep => exact ih (sweep related)

/-! ### Whole runs -/

/-- The clock and the state behind an event. -/
def happen (machine : Machine σ) (now : Nat) (state : σ) : Event → Nat × σ
  | .call standing op => (now, (machine.perform state now standing op).2)
  | .advance millis => (now + millis, state)
  | .sweep => (now, machine.sweep state now)

/-- The clock and the state behind a run. -/
def reach (machine : Machine σ) : (now : Nat) → σ → List Event → Nat × σ
  | now, state, [] => (now, state)
  | now, state, event :: events =>
    machine.reach (machine.happen now state event).1 (machine.happen now state event).2 events

/-- The clock never goes back. -/
theorem le_happen (machine : Machine σ) (now : Nat) (state : σ) (event : Event) :
    now ≤ (machine.happen now state event).1 := by
  cases event with
  | call standing op => exact Nat.le_refl now
  | advance millis => exact Nat.le_add_right now millis
  | sweep => exact Nat.le_refl now

theorem le_reach (machine : Machine σ) (now : Nat) (state : σ) (events : List Event) :
    now ≤ (machine.reach now state events).1 := by
  induction events generalizing now state with
  | nil => exact Nat.le_refl now
  | cons event events ih => exact Nat.le_trans (machine.le_happen now state event) (ih _ _)

end Machine

/-- One event of a run: the moment, and the states before and behind it. -/
structure Stage (σ : Type) where
  now : Nat
  before : σ
  event : Event
  after : σ

/-- The stages of a run that starts at `now` in a given state. -/
def Machine.history (machine : Machine σ) : (now : Nat) → σ → List Event → List (Stage σ)
  | _, _, [] => []
  | now, state, event :: events =>
    ⟨now, state, event, (machine.happen now state event).2⟩ ::
      machine.history (machine.happen now state event).1 (machine.happen now state event).2 events

/-- No stage of a run is earlier than its beginning. -/
theorem Machine.le_of_mem_history {machine : Machine σ} {now : Nat} {state : σ} {events : List Event}
    {stage : Stage σ} (mem : stage ∈ machine.history now state events) : now ≤ stage.now := by
  induction events generalizing now state with
  | nil => cases mem
  | cons event events ih =>
      obtain rfl | later := List.mem_cons.mp mem
      · exact Nat.le_refl _
      · exact Nat.le_trans (machine.le_happen now state event) (ih later)

end TimedCache
