import TimedCache.Proofs.Deployment.Notes

/-!
# One backend among others

When a program has a number of backends perform operations, each of them is in the end as if **its own
operations had been performed alone**, in the same order (`Secluded.askAll`).  All that is needed is that
the backend is secluded: what becomes of it depends on itself and on its own operations.

**In a deployment** the backends in the process are secluded, and so is one on a server that shares the
wire with no other (`Deployment.secluded`).  Operations take no time, so the clocks and the tokens stay
the same.  Where every backend has a wire of its own, all of them are secluded (`Wired.secluded`).

## Main Definitions

* `Call.askAll` — what surroundings become by several questions
* `Secluded` — a backend that depends on nothing but its own operations
* `Deployment.Unshared` — whether a backend has the wire for itself, if it needs it
* `Wired` — a deployment in which every backend has a wire of its own
-/

namespace TimedCache

/-! ### Several questions -/

namespace Call

variable {σ : Type} {answer : (call : Call) → σ → call.Answer × σ}

/-- What surroundings become when several questions are asked one after another. -/
def askAll (answer : (call : Call) → σ → call.Answer × σ) (calls : List Call) (s : σ) : σ :=
  calls.foldl (fun s call => (answer call s).2) s

theorem askAll_append (first second : List Call) (s : σ) :
    askAll answer (first ++ second) s = askAll answer second (askAll answer first s) :=
  List.foldl_append

/-- Whether a question has a backend perform an operation. -/
def isTo (backend : Nat) : Call → Bool
  | perform other _ _ => other = backend
  | _ => false

/-- What every one of the questions keeps is kept by all of them. -/
theorem askAll_keeps {P : σ → Prop} {calls : List Call}
    (step : ∀ call ∈ calls, ∀ {s}, P s → P (answer call s).2) {s : σ} (start : P s) :
    P (askAll answer calls s) := by
  induction calls generalizing s with
  | nil => exact start
  | cons call calls ih =>
      obtain ⟨first, others⟩ := List.forall_mem_cons.mp step
      exact ih others (first start)

end Call

/-- **A run leaves** what the questions that it asks leave. -/
theorem Program.run_snd_eq_askAll {α σ : Type} {answer : (call : Call) → σ → call.Answer × σ}
    (worker : Nat) (clock : σ → Nat) (program : Program α) (s : σ) :
    (program.run answer s).2 =
      Call.askAll answer ((program.notes worker clock answer s).map Note.call) s := by
  induction program generalizing s with
  | done a => rfl
  | ask call next ih => exact ih _ _

/-! ### Secluded backends -/

/-- **A secluded backend**: where it is the same in two surroundings, it remains so by an operation of its
own in both of them, and by an operation of another backend in one of them. -/
structure Secluded {σ : Type} (answer : (call : Call) → σ → call.Answer × σ) (backend : Nat)
    (same : σ → σ → Prop) : Prop where
  own : ∀ {s s'}, same s s' → ∀ context op,
    same (answer (.perform backend context op) s).2 (answer (.perform backend context op) s').2
  others : ∀ {s s'}, same s s' → ∀ {other}, other ≠ backend → ∀ context op,
    same (answer (.perform other context op) s).2 s'

/-- A secluded backend is as if its own operations had been performed alone. -/
theorem Secluded.askAll {σ : Type} {answer : (call : Call) → σ → call.Answer × σ} {backend : Nat}
    {same : σ → σ → Prop} (secluded : Secluded answer backend same) {calls : List Call}
    (operations : ∀ call ∈ calls, ∃ other context op, call = .perform other context op) {s s' : σ}
    (start : same s s') :
    same (Call.askAll answer calls s)
      (Call.askAll answer (calls.filter (Call.isTo backend)) s') := by
  induction calls generalizing s s' with
  | nil => exact start
  | cons call calls ih =>
      obtain ⟨⟨other, context, op, rfl⟩, others⟩ := List.forall_mem_cons.mp operations
      by_cases own : other = backend
      · subst own
        have kept : Call.isTo other (.perform other context op) = true := decide_eq_true rfl
        rw [List.filter_cons_of_pos kept]
        exact ih others (secluded.own start context op)
      · have dropped : ¬Call.isTo backend (.perform other context op) = true := by
          rw [Call.isTo, decide_eq_true_eq]
          exact own
        rw [List.filter_cons_of_neg dropped]
        exact ih others (secluded.others start own context op)

/-! ### Backends of a deployment -/

namespace Engine

/-- What an engine becomes does not depend on the wire, unless it is that of a backend on a server. -/
theorem perform_of_wire {engine : Engine} {first second : Remote.Wire}
    (same : (∃ client, engine = .onServer client) → first = second) (now : Nat)
    (standing : Standing) (op : Operation) :
    (engine.perform now standing first op).2.1 = (engine.perform now standing second op).2.1 := by
  cases engine with
  | inProcess store sweeper => rfl
  | onServer client => rw [same ⟨client, rfl⟩]

/-- An engine in the process leaves the wire alone. -/
theorem wire_perform {engine : Engine} (away : ¬∃ client, engine = .onServer client) (now : Nat)
    (standing : Standing) (wire : Remote.Wire) (op : Operation) :
    (engine.perform now standing wire op).2.2 = wire := by
  cases engine with
  | inProcess store sweeper => rfl
  | onServer client => exact absurd ⟨client, rfl⟩ away

/-- An engine remains where it is. -/
theorem onServer_perform (engine : Engine) (now : Nat) (standing : Standing) (wire : Remote.Wire)
    (op : Operation) : (∃ client, (engine.perform now standing wire op).2.1 = .onServer client) ↔
      ∃ client, engine = .onServer client := by
  cases engine with
  | inProcess store sweeper => exact ⟨nofun, nofun⟩
  | onServer client => exact ⟨fun _ => ⟨client, rfl⟩, fun _ => ⟨_, rfl⟩⟩

end Engine

namespace Deployment

/-- Whether a backend is on a server. -/
def OnServer (deployment : Deployment) (backend : Nat) : Prop :=
  ∃ client, deployment.engines[backend]? = some (.onServer client)

/-- If the backend is on a server, then no other one is, so it has the wire for itself. -/
def Unshared (deployment : Deployment) (backend : Nat) : Prop :=
  deployment.OnServer backend → ∀ other, other ≠ backend → ¬deployment.OnServer other

/-- A backend is the same in two deployments: its engine is, the clocks and the tokens are, and so is
the wire if it is on a server. -/
structure SameBackend (backend : Nat) (deployment alone : Deployment) : Prop where
  engine : deployment.engines[backend]? = alone.engines[backend]?
  epoch : deployment.epoch = alone.epoch
  elapsed : deployment.elapsed = alone.elapsed
  tokens : deployment.tokens = alone.tokens
  wire : deployment.OnServer backend → deployment.wire = alone.wire

variable {deployment alone : Deployment} {backend : Nat}

theorem SameBackend.refl (backend : Nat) (deployment : Deployment) :
    SameBackend backend deployment deployment :=
  ⟨rfl, rfl, rfl, rfl, fun _ => rfl⟩

/-- An operation leaves every backend where it is. -/
theorem onServer_perform (deployment : Deployment) (asked backend : Nat) (context : Context)
    (op : Operation) :
    (deployment.perform asked context op).2.OnServer backend ↔ deployment.OnServer backend := by
  by_cases same : asked = backend
  · subst same
    cases engine : deployment.engines[asked]? with
    | none => rw [perform, engine]
    | some behind =>
        obtain ⟨-, becomes, -⟩ := perform_of_engine engine context op
        unfold OnServer
        rw [becomes, engine]
        simp only [Option.some.injEq]
        exact behind.onServer_perform _ _ _ op
  · unfold OnServer
    rw [engines_perform_of_ne same]

theorem unshared_perform (unshared : deployment.Unshared backend) (asked : Nat) (context : Context)
    (op : Operation) : (deployment.perform asked context op).2.Unshared backend := by
  intro there other ne there'
  rw [onServer_perform] at there there'
  exact unshared there other ne there'

/-- Only a backend on a server has to do with the wire. -/
theorem wire_perform (away : ¬deployment.OnServer backend) (context : Context) (op : Operation) :
    (deployment.perform backend context op).2.wire = deployment.wire := by
  cases engine : deployment.engines[backend]? with
  | none => rw [perform, engine]
  | some behind =>
      obtain ⟨-, -, wired⟩ := perform_of_engine engine context op
      have inside : ¬∃ client, behind = .onServer client := by
        rintro ⟨client, rfl⟩
        exact away ⟨client, engine⟩
      rw [wired, Engine.wire_perform inside]

namespace SameBackend

theorem wall (same : SameBackend backend deployment alone) : deployment.wall = alone.wall := by
  rw [Deployment.wall, Deployment.wall, wallAt, wallAt, same.epoch, same.elapsed]

theorem standing (same : SameBackend backend deployment alone) (context : Context) :
    deployment.standing context = alone.standing context := by
  rw [Deployment.standing, Deployment.standing, same.elapsed, same.tokens]

/-- An operation of the backend, in both deployments. -/
theorem own (same : SameBackend backend deployment alone) (context : Context) (op : Operation) :
    SameBackend backend (deployment.perform backend context op).2
      (alone.perform backend context op).2 := by
  obtain ⟨epoch, elapsed, tokens⟩ := kept_perform deployment backend context op
  obtain ⟨epoch', elapsed', tokens'⟩ := kept_perform alone backend context op
  cases engine : deployment.engines[backend]? with
  | none =>
      have engine' := same.engine ▸ engine
      have nothing : (deployment.perform backend context op).2 = deployment := by
        rw [perform, engine]
      have nothing' : (alone.perform backend context op).2 = alone := by
        rw [perform, engine']
      rw [nothing, nothing']
      exact same
  | some behind =>
      -- Both deployments have the same engine perform the same, at the same time.
      have engine' : alone.engines[backend]? = some behind := same.engine ▸ engine
      obtain ⟨-, becomes, wired⟩ := perform_of_engine engine context op
      obtain ⟨-, becomes', wired'⟩ := perform_of_engine engine' context op
      rw [← same.wall, ← same.standing] at becomes' wired'
      refine ⟨?_, epoch.trans (same.epoch.trans epoch'.symm),
        elapsed.trans (same.elapsed.trans elapsed'.symm),
        tokens.trans (same.tokens.trans tokens'.symm), fun there => ?_⟩
      · have alike : (∃ client, behind = .onServer client) → deployment.wire = alone.wire := by
          rintro ⟨client, rfl⟩
          exact same.wire ⟨client, engine⟩
        rw [becomes, becomes', Engine.perform_of_wire alike _ _ op]
      · rw [wired, wired', same.wire ((deployment.onServer_perform backend backend context op).mp there)]

/-- An operation of another backend, in the first deployment, if the wire is none of its business. -/
theorem other (same : SameBackend backend deployment alone) {asked : Nat} (ne : asked ≠ backend)
    (context : Context) (op : Operation)
    (wire : deployment.OnServer backend →
      (deployment.perform asked context op).2.wire = deployment.wire) :
    SameBackend backend (deployment.perform asked context op).2 alone := by
  obtain ⟨epoch, elapsed, tokens⟩ := kept_perform deployment asked context op
  refine ⟨(engines_perform_of_ne ne context op).trans same.engine, epoch.trans same.epoch,
    elapsed.trans same.elapsed, tokens.trans same.tokens, fun there => ?_⟩
  have here := (deployment.onServer_perform asked backend context op).mp there
  exact (wire here).trans (same.wire here)

end SameBackend

/-- **A backend of a deployment** is secluded while it has the wire for itself, if it needs it. -/
theorem secluded (backend : Nat) : Secluded answer backend fun deployment alone =>
    SameBackend backend deployment alone ∧ deployment.Unshared backend where
  own := by
    rintro deployment alone ⟨same, unshared⟩ context op
    exact ⟨same.own context op, unshared_perform unshared backend context op⟩
  others := by
    rintro deployment alone ⟨same, unshared⟩ asked ne context op
    exact ⟨same.other ne context op fun here => wire_perform (unshared here asked ne) context op,
      unshared_perform unshared asked context op⟩

end Deployment

/-! ### Wires of their own -/

/-- A deployment in which every backend has a wire of its own. -/
structure Wired where
  deployment : Deployment
  wires : Nat → Remote.Wire

namespace Wired

/-- What the deployment is to a backend: one with the wire of the backend. -/
def seenBy (wired : Wired) (backend : Nat) : Deployment :=
  { wired.deployment with wire := wired.wires backend }

/-- Has a backend perform an operation over its own wire. -/
def perform (wired : Wired) (backend : Nat) (context : Context) (op : Operation) : op.Answer × Wired :=
  let (answer, after) := (wired.seenBy backend).perform backend context op
  (answer, ⟨after, Function.update wired.wires backend after.wire⟩)

/-- Answers a question of a program. -/
def answer : (call : Call) → Wired → call.Answer × Wired
  | .perform backend context op, wired => wired.perform backend context op
  | call, wired =>
    let (answer, after) := Deployment.answer call wired.deployment
    (answer, ⟨after, wired.wires⟩)

/-- A backend is the same in two deployments, over its own wire. -/
def SameBackend (backend : Nat) (wired alone : Wired) : Prop :=
  Deployment.SameBackend backend (wired.seenBy backend) (alone.seenBy backend)

theorem seenBy_perform (wired : Wired) (backend : Nat) (context : Context) (op : Operation) :
    (wired.perform backend context op).2.seenBy backend =
      ((wired.seenBy backend).perform backend context op).2 := by
  rw [seenBy, perform]
  dsimp only
  rw [Function.update_self]

/-- **Over a wire of its own**, every backend is secluded. -/
theorem secluded (backend : Nat) : Secluded answer backend (SameBackend backend) where
  own := by
    intro wired alone same context op
    have performed := Deployment.SameBackend.own same context op
    rw [← seenBy_perform, ← seenBy_perform] at performed
    exact performed
  others := by
    intro wired alone same asked ne context op
    -- Nothing but the wire tells what the two backends see.
    obtain ⟨epoch, elapsed, tokens⟩ :=
      Deployment.kept_perform (wired.seenBy asked) asked context op
    have engine : ((wired.seenBy asked).perform asked context op).2.engines[backend]? =
        wired.deployment.engines[backend]? := Deployment.engines_perform_of_ne ne context op
    refine ⟨engine.trans same.engine, epoch.trans same.epoch, elapsed.trans same.elapsed,
      tokens.trans same.tokens, fun there => ?_⟩
    obtain ⟨client, behind⟩ := there
    have kept : (answer (.perform asked context op) wired).2.wires backend = wired.wires backend :=
      Function.update_of_ne ne.symm _ _
    exact kept.trans (same.wire ⟨client, engine.symm.trans behind⟩)

end Wired

end TimedCache
