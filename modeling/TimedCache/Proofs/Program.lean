import TimedCache.Program

/-!
# What programs ask and give

A program **always** asks certain questions and gives certain results, if it does so whatever it is
answered (`Program.Always`).  Where such questions keep an invariant of the surroundings, a run of
the program keeps it, and what it gives is such a result (`Program.Always.run`).

How long a program may take is the number of questions that it asks at most (`Program.AsksAtMost`).
-/

namespace TimedCache.Program

variable {α σ : Type}

/-- Whatever it is answered, the program asks only such questions and gives only such results. -/
def Always (asks : Call → Prop) (gives : α → Prop) : Program α → Prop
  | done a => gives a
  | ask call next => asks call ∧ ∀ answer, (next answer).Always asks gives

/-- A program that asks less may also ask more. -/
theorem Always.mono {asks asks' : Call → Prop} {gives : α → Prop} {program : Program α}
    (always : program.Always asks gives) (more : ∀ {call}, asks call → asks' call) :
    program.Always asks' gives := by
  induction program with
  | done a => exact always
  | ask call next ih => exact ⟨more always.1, fun answer => ih answer (always.2 answer)⟩

/-- One program after the other. -/
theorem Always.bind {β : Type} {asks : Call → Prop} {gives : α → Prop} {gives' : β → Prop}
    {program : Program α} {next : α → Program β} (always : program.Always asks gives)
    (rest : ∀ a, gives a → (next a).Always asks gives') :
    (program.bind next).Always asks gives' := by
  induction program with
  | done a => exact rest a always
  | ask call after ih => exact ⟨always.1, fun answer => ih answer (always.2 answer)⟩

/-- **Runs keep what the questions keep.** -/
theorem Always.run {asks : Call → Prop} {gives : α → Prop} {program : Program α}
    (always : program.Always asks gives) {answer : (call : Call) → σ → call.Answer × σ}
    {Inv : σ → Prop} (step : ∀ {call s}, asks call → Inv s → Inv (answer call s).2) {s : σ}
    (inv : Inv s) : gives (program.run answer s).1 ∧ Inv (program.run answer s).2 := by
  induction program generalizing s with
  | done a => exact ⟨always, inv⟩
  | ask call next ih => exact ih _ (always.2 _) (step always.1 inv)

/-- Whatever it is answered, the program has a result after some number of questions. -/
def AsksAtMost : Nat → Program α → Prop
  | _, done _ => True
  | 0, ask _ _ => False
  | n + 1, ask _ next => ∀ answer, AsksAtMost n (next answer)

end TimedCache.Program
