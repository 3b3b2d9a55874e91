import TimedCache.Engine
import TimedCache.Program

/-!
# Deployments

A deployment is a set of engines with the clocks, the cancellation tokens and the shared counters
that programs use.  It is the **surroundings** in which programs run.

**Clocks.**  The monotonic clock counts nanoseconds since the deployment was started.  The wall
clock shows milliseconds and moves along with it.  Time passes only where a program pauses; all
sweeps that are due in the meantime take place.

## Main Definitions

* `Deployment` — engines, clocks, tokens and counters
* `Deployment.advanceTo`, `Deployment.advance` — lets time pass
* `Deployment.answer` — answers a question of a program
* `Deployment.run` — runs a program to its end
-/

namespace TimedCache

/-- Engines, clocks, tokens and counters. -/
structure Deployment where
  /-- The wall clock at the start, in milliseconds. -/
  epoch : Nat
  /-- The monotonic clock, in nanoseconds since the start. -/
  elapsed : Nat
  tokens : TokenForest
  engines : Array Engine
  tickets : Array Nat
  /-- What becomes of the coming exchanges with the server. -/
  wire : Remote.Wire
  deriving Inhabited

namespace Deployment

/-- A deployment without engines whose wall clock shows `epoch`. -/
def start (epoch : Nat) : Deployment :=
  ⟨epoch, 0, .empty, #[], #[], .fresh []⟩

/-! ### Time -/

/-- The wall clock at a reading of the monotonic clock. -/
def wallAt (deployment : Deployment) (elapsed : Nat) : Nat :=
  deployment.epoch + elapsed / 1000000

/-- The wall clock. -/
def wall (deployment : Deployment) : Nat :=
  deployment.wallAt deployment.elapsed

/-- The deployment at a later reading of the monotonic clock. -/
def advanceTo (deployment : Deployment) (later : Nat) : Deployment :=
  { deployment with
    elapsed := Nat.max deployment.elapsed later
    engines := deployment.engines.map (Engine.catchUp deployment.wallAt later) }

/-- The deployment after some time. -/
def advance (deployment : Deployment) (duration : Duration) : Deployment :=
  deployment.advanceTo (deployment.elapsed + duration.nanos)

/-- The moment at which a timer fires that is set now. -/
def timer (deployment : Deployment) (duration : Duration) : Nat :=
  nextTick (deployment.elapsed + duration.nanos)

/-- The standing of a context at this moment. -/
def standing (deployment : Deployment) (context : Context) : Standing :=
  deployment.tokens.standing deployment.elapsed context

/-! ### Growing -/

/-- Puts an engine into the deployment. -/
def addEngine (deployment : Deployment) (engine : Engine) : Nat × Deployment :=
  (deployment.engines.size, { deployment with engines := deployment.engines.push engine })

/-- Puts a local backend into the deployment. -/
def addLocal (deployment : Deployment) (options : Options) (interval : Duration) :
    Backend × Deployment :=
  let engine := .inProcess (.fresh options) (.start deployment.elapsed interval)
  let (id, deployment) := deployment.addEngine engine
  (⟨id, .inProcess, options⟩, deployment)

/-- Puts a remote backend into the deployment. -/
def addRemote (deployment : Deployment) (client : Remote.Client) : Backend × Deployment :=
  let (id, deployment) := deployment.addEngine (.onServer client)
  (⟨id, .onServer, client.options⟩, deployment)

/-- Sets up a new shared counter. -/
def addCounter (deployment : Deployment) : Nat × Deployment :=
  (deployment.tickets.size, { deployment with tickets := deployment.tickets.push 0 })

/-- How often a shared counter was drawn. -/
def drawn (deployment : Deployment) (counter : Nat) : Nat :=
  deployment.tickets.getD counter 0

/-! ### Answering programs -/

/-- Has a backend perform an operation. -/
def perform (deployment : Deployment) (backend : Nat) (context : Context) (op : Operation) :
    op.Answer × Deployment :=
  match deployment.engines[backend]? with
  | none => (.error .closed, deployment)
  | some engine =>
    let (answer, engine, wire) :=
      engine.perform deployment.wall (deployment.standing context) deployment.wire op
    (answer,
      { deployment with
        engines := deployment.engines.setIfInBounds backend engine
        wire := wire })

/-- Answers a question of a program.  The deadline of a context is computed whether or not the clock
can show it. -/
def answer : (call : Call) → Deployment → call.Answer × Deployment
  | .perform backend context op, deployment => deployment.perform backend context op
  | .wallClock, deployment => (deployment.wall, deployment)
  | .limitedContext timeout, deployment =>
    (.timeoutAt deployment.elapsed timeout, deployment)
  | .ticket counter, deployment =>
    (deployment.drawn counter,
      { deployment with tickets := deployment.tickets.modify counter (· + 1) })
  | .pause duration, deployment => ((), deployment.advanceTo (deployment.timer duration))

/-- Runs a program to its end. -/
def run {α : Type} (deployment : Deployment) (program : Program α) : α × Deployment :=
  program.run answer deployment

end Deployment

end TimedCache
