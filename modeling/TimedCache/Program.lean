import TimedCache.Context
import TimedCache.Operation

/-!
# Programs over backends

Whatever is built on top of backends is a **program**: a tree that asks its surroundings one
question at a time and goes on with the answer.  What the surroundings are is left open, so the
same program can be run on real stores, against backends that fail in any way, or step by step
between other programs.

## Main Definitions

* `Call`, `Call.Answer` — the questions, and the kind of answer to each
* `Program` — a tree of questions with a result at each leaf
* `Program.run` — runs a program to its end in some surroundings
* `Program.perform`, `Program.wallClock`, … — programs of one question
-/

namespace TimedCache

/-- A question to the surroundings of a program. -/
inductive Call where
  /-- Has a backend perform an operation under a context. -/
  | perform (backend : Nat) (context : Context) (op : Operation)
  /-- The wall clock, in milliseconds. -/
  | wallClock
  /-- A context that ends after the given time.  Whoever goes on under it relies on a deadline that
  the clock can show. -/
  | limitedContext (timeout : Duration)
  /-- The next number of a counter that all programs share. -/
  | ticket (counter : Nat)
  /-- Lets time pass. -/
  | pause (duration : Duration)

/-- The kind of answer to a question. -/
@[reducible] def Call.Answer : Call → Type
  | perform _ _ op => op.Answer
  | wallClock => Nat
  | limitedContext _ => Context
  | ticket _ => Nat
  | pause _ => Unit

/-- A tree of questions with a result at each leaf. -/
inductive Program (α : Type) where
  | done (result : α)
  | ask (call : Call) (next : call.Answer → Program α)

namespace Program

variable {α β γ σ : Type}

/-- Runs a program and goes on with its result. -/
def bind : Program α → (α → Program β) → Program β
  | done a, f => f a
  | ask call next, f => ask call fun answer => bind (next answer) f

instance : Monad Program where
  pure := done
  bind := bind

@[simp] theorem bind_done (a : α) (f : α → Program β) : (done a).bind f = f a := rfl

@[simp] theorem bind_ask (call : Call) (next : call.Answer → Program α) (f : α → Program β) :
    (ask call next).bind f = ask call fun answer => (next answer).bind f := rfl

/-- Going on with the result itself changes nothing. -/
@[simp] theorem bind_pure (p : Program α) : p.bind done = p := by
  induction p with
  | done a => rfl
  | ask call next ih => simp [ih]

/-- Going on twice is going on once. -/
theorem bind_assoc (p : Program α) (f : α → Program β) (g : β → Program γ) :
    (p.bind f).bind g = p.bind fun a => (f a).bind g := by
  induction p with
  | done a => rfl
  | ask call next ih => simp [ih]

/-- Runs a program to its end; `answer` is what the surroundings make of a question. -/
def run (answer : (call : Call) → σ → call.Answer × σ) : Program α → σ → α × σ
  | done a, s => (a, s)
  | ask call next, s =>
    let (reply, s) := answer call s
    run answer (next reply) s

/-- Running on is running the rest in what the first part left. -/
theorem run_bind (answer : (call : Call) → σ → call.Answer × σ) (p : Program α)
    (f : α → Program β) (s : σ) :
    (p.bind f).run answer s = (f (p.run answer s).1).run answer (p.run answer s).2 := by
  induction p generalizing s with
  | done a => rfl
  | ask call next ih => simp [run, ih]

/-! ### Programs of one question -/

/-- Has a backend perform an operation. -/
def perform (backend : Nat) (context : Context) (op : Operation) : Program op.Answer :=
  ask (.perform backend context op) done

/-- Reads the wall clock, in milliseconds. -/
def wallClock : Program Nat := ask .wallClock done

/-- A context that ends after the given time. -/
def limitedContext (timeout : Duration) : Program Context := ask (.limitedContext timeout) done

/-- Draws the next number of a shared counter. -/
def ticket (counter : Nat) : Program Nat := ask (.ticket counter) done

/-- Lets time pass. -/
def pause (duration : Duration) : Program Unit := ask (.pause duration) done

end Program

end TimedCache
