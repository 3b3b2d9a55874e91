import TimedCache.Deployment.Basic

/-!
# Concurrent programs

Several programs may be under way in one deployment.  A program runs without interruption **until
it pauses**; then the program whose pause ends first goes on, and of several such programs the one
that was started first.

Work that takes some time may be **bound to a context**: it is abandoned as soon as the context is
cancelled or runs out.  Work that is finished at the very moment at which the context ends counts as
finished.

## Main Definitions

* `Thread` — a program that has ended or is pausing
* `Deployment.runAll` — runs several programs to their ends
* `Deployment.runBound` — lets work go on under a context
-/

namespace TimedCache

/-- A program that has ended, or that goes on when its pause is over. -/
inductive Thread (α : Type) where
  | ended (result : α)
  | pausing (wake : Nat) (rest : Program α)

namespace Thread

variable {α : Type}

/-- When the program goes on, if it does. -/
def wake? : Thread α → Option Nat
  | ended _ => none
  | pausing wake _ => some wake

/-- The result of the program, if it has ended. -/
def result? : Thread α → Option α
  | ended result => some result
  | pausing _ _ => none

end Thread

namespace Deployment

variable {α : Type}

/-- Runs a program until it pauses or ends. -/
def runToPause : Program α → Deployment → Thread α × Deployment
  | .done result, deployment => (.ended result, deployment)
  | .ask (.pause duration) next, deployment =>
    (.pausing (deployment.timer duration) (next ()), deployment)
  | .ask (.perform backend context op) next, deployment =>
    let (reply, deployment) := answer (.perform backend context op) deployment
    runToPause (next reply) deployment
  | .ask .wallClock next, deployment =>
    let (reply, deployment) := answer .wallClock deployment
    runToPause (next reply) deployment
  | .ask (.limitedContext timeout) next, deployment =>
    let (reply, deployment) := answer (.limitedContext timeout) deployment
    runToPause (next reply) deployment
  | .ask (.ticket counter) next, deployment =>
    let (reply, deployment) := answer (.ticket counter) deployment
    runToPause (next reply) deployment

/-- Starts several programs one after another. -/
def startAll : List (Program α) → Deployment → List (Thread α) × Deployment
  | [], deployment => ([], deployment)
  | program :: programs, deployment =>
    let (thread, deployment) := runToPause program deployment
    let (threads, deployment) := startAll programs deployment
    (thread :: threads, deployment)

/-- The moment at which the first pause ends. -/
def firstWake (threads : List (Thread α)) : Option Nat :=
  (threads.filterMap Thread.wake?).min?

/-- Goes on with the first program whose pause ends at `moment`. -/
def wakeFirst (moment : Nat) : List (Thread α) → Deployment → List (Thread α) × Deployment
  | [], deployment => ([], deployment)
  | .ended result :: threads, deployment =>
    let (threads, deployment) := wakeFirst moment threads deployment
    (.ended result :: threads, deployment)
  | .pausing wake rest :: threads, deployment =>
    if wake = moment then
      let (thread, deployment) := runToPause rest deployment
      (thread :: threads, deployment)
    else
      let (threads, deployment) := wakeFirst moment threads deployment
      (.pausing wake rest :: threads, deployment)

/-- Lets at most `fuel` pauses end, one after another. -/
def drive : (fuel : Nat) → List (Thread α) → Deployment → List (Thread α) × Deployment
  | 0, threads, deployment => (threads, deployment)
  | fuel + 1, threads, deployment =>
    match firstWake threads with
    | none => (threads, deployment)
    | some moment =>
      let (threads, deployment) := wakeFirst moment threads (deployment.advanceTo moment)
      drive fuel threads deployment

/-- Runs several programs that start together, of which each pauses at most `pauses` times, to
their ends. -/
def runAll (deployment : Deployment) (pauses : Nat) (programs : List (Program α)) :
    List α × Deployment :=
  let (threads, deployment) := startAll programs deployment
  let (threads, deployment) := drive (pauses * programs.length) threads deployment
  (threads.filterMap Thread.result?, deployment)

/-! ### Work under a context -/

/-- What ends a piece of work. -/
inductive Ending where
  | finished
  | ranOut
  | cancelled
  deriving DecidableEq, Repr

/-- What ends first: the work itself, the deadline, or a cancellation.  Of what happens at the
same moment, what is listed first counts. -/
def firstEnding (work : Nat) (deadline cancel : Option Nat) : Ending × Nat :=
  let bounded := match deadline with
    | some moment => if moment < work then (Ending.ranOut, moment) else (.finished, work)
    | none => (.finished, work)
  match cancel with
  | some moment => if moment < bounded.2 then (.cancelled, moment) else bounded
  | none => bounded

/-- Lets work go on under a context, which is cancelled after some time if that is wanted.  Work of
no length is finished at once. -/
def runBound (deployment : Deployment) (context : Context) (work : Duration)
    (cancelAfter : Option Duration) : Except CacheError Unit × Deployment :=
  match (deployment.standing context).failure? with
  | some failure => (.error failure, deployment)
  | none =>
    let finish := if work.isZero then deployment.elapsed else deployment.timer work
    let (ending, moment) :=
      firstEnding finish (context.deadline.map nextTick) (cancelAfter.map deployment.timer)
    let deployment := deployment.advanceTo moment
    match ending, context.token with
    | .finished, _ => (.ok (), deployment)
    | .ranOut, _ => (.error .deadlineExceeded, deployment)
    | .cancelled, some token =>
      (.error .canceled, { deployment with tokens := deployment.tokens.cancel token })
    | .cancelled, none => (.error .canceled, deployment)

end Deployment

end TimedCache
