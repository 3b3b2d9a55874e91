import TimedCache.Proofs.Deployment.KeyLog

/-!
# As if others had been alone

Programs that touch nothing but keys of their own **do not show** under the other keys of a backend.
For every moment one can compare the deployment with what it had been if there were no such programs,
and all the others had done the same: both clocks show the same time, and both backends show the same
under all other keys (`Crowd.beside_reach`).

The others may get other answers in one case than in the other: the store has more entries while the
programs are under way.  But what a question makes of a key depends only on what is live under it
(`Store.AlikeOn.perform`), so this does not matter.

## Main Definitions

* `Call.Unseen` — a question that does not show under certain keys
* `Deployment.Beside` — deployments that show the same under certain keys of a backend
-/

namespace TimedCache

/-- Whether a question lets no time pass and leaves certain keys of a backend alone. -/
def Call.Unseen (backend : Nat) (keys : Bytes → Prop) : Call → Prop
  | .perform other _ op => other = backend → op.isData = true ∧ ∀ key, keys key → op.alters key = false
  | .pause _ => False
  | _ => True

/-- Deployments at the same time, with the same tokens, in which a backend shows the same under certain
keys. -/
structure Deployment.Beside (backend : Nat) (keys : Bytes → Prop) (alone deployment : Deployment) :
    Prop where
  epoch : deployment.epoch = alone.epoch
  elapsed : deployment.elapsed = alone.elapsed
  tokens : deployment.tokens = alone.tokens
  stores : ∃ store other, alone.store? backend = some store ∧ deployment.store? backend = some other ∧
    store.AlikeOn alone.wall keys other

namespace Deployment.Beside

variable {backend : Nat} {keys : Bytes → Prop} {alone deployment : Deployment}

theorem wallAt (beside : alone.Beside backend keys deployment) (elapsed : Nat) :
    deployment.wallAt elapsed = alone.wallAt elapsed := by
  rw [Deployment.wallAt, Deployment.wallAt, beside.epoch]

theorem wall (beside : alone.Beside backend keys deployment) : deployment.wall = alone.wall := by
  rw [Deployment.wall, Deployment.wall, beside.elapsed, beside.wallAt]

theorem standing (beside : alone.Beside backend keys deployment) (context : Context) :
    deployment.standing context = alone.standing context := by
  rw [Deployment.standing, Deployment.standing, beside.elapsed, beside.tokens]

/-! ### What happens to both -/

theorem advanceTo (beside : alone.Beside backend keys deployment) (later : Nat) :
    (alone.advanceTo later).Beside backend keys (deployment.advanceTo later) where
  epoch := beside.epoch
  elapsed := congrArg (Nat.max · later) beside.elapsed
  tokens := beside.tokens
  stores := by
    obtain ⟨store, other, here, there, alike⟩ := beside.stores
    obtain ⟨after, here', same⟩ := alike_advanceTo here later
    obtain ⟨after', there', same'⟩ := alike_advanceTo there later
    have wall : (deployment.advanceTo later).wall = (alone.advanceTo later).wall := by
      show deployment.wallAt (Nat.max deployment.elapsed later) =
        alone.wallAt (Nat.max alone.elapsed later)
      rw [beside.elapsed, beside.wallAt]
    rw [wall] at same'
    exact ⟨after, after', here', there', (same.on keys).symm.trans
      ((alike.later (alone.wall_le_advanceTo later)).trans (same'.on keys))⟩

theorem sweep (beside : alone.Beside backend keys deployment) (swept : Nat) :
    (alone.sweep swept).Beside backend keys (deployment.sweep swept) where
  epoch := beside.epoch
  elapsed := beside.elapsed
  tokens := beside.tokens
  stores := by
    obtain ⟨store, other, here, there, alike⟩ := beside.stores
    by_cases same : swept = backend
    · subst same
      have swept' := other.sweep_alike deployment.wall
      rw [beside.wall] at swept'
      exact ⟨_, _, store?_sweep here, beside.wall ▸ store?_sweep there,
        ((store.sweep_alike alone.wall).on keys).symm.trans (alike.trans (swept'.on keys))⟩
    · exact ⟨store, other, (store?_sweep_of_ne same).trans here,
        (store?_sweep_of_ne same).trans there, alike⟩

theorem perform (beside : alone.Beside backend keys deployment) (asked : Nat) (context : Context)
    (op : Operation) :
    (alone.perform asked context op).2.Beside backend keys
      (deployment.perform asked context op).2 := by
  obtain ⟨epoch, elapsed, tokens⟩ := kept_perform alone asked context op
  obtain ⟨epoch', elapsed', tokens'⟩ := kept_perform deployment asked context op
  refine ⟨epoch'.trans (beside.epoch.trans epoch.symm),
    elapsed'.trans (beside.elapsed.trans elapsed.symm),
    tokens'.trans (beside.tokens.trans tokens.symm), ?_⟩
  obtain ⟨store, other, here, there, alike⟩ := beside.stores
  have wall := alone.wall_perform asked context op
  rw [wall]
  by_cases same : asked = backend
  · subst same
    obtain ⟨-, here', -⟩ := store?_perform here context op
    obtain ⟨-, there', -⟩ := store?_perform there context op
    rw [beside.wall, beside.standing] at there'
    exact ⟨_, _, here', there', alike.perform _ op⟩
  · exact ⟨store, other, (store?_perform_of_ne same context op).trans here,
      (store?_perform_of_ne same context op).trans there, alike⟩

/-- **What happens to both** does not tell them apart. -/
theorem happen (beside : alone.Beside backend keys deployment) (incident : Incident) :
    (alone.happen incident).Beside backend keys (deployment.happen incident) := by
  cases incident with
  | ask call =>
      cases call with
      | perform asked context op => exact beside.perform asked context op
      | wallClock | limitedContext _ => exact beside
      | ticket _ => exact ⟨beside.epoch, beside.elapsed, beside.tokens, beside.stores⟩
      | pause duration =>
          show (alone.advanceTo (nextTick (alone.elapsed + duration.nanos))).Beside backend keys
            (deployment.advanceTo (nextTick (deployment.elapsed + duration.nanos)))
          rw [beside.elapsed]
          exact beside.advanceTo _
  | advance duration =>
      show (alone.advanceTo (alone.elapsed + duration.nanos)).Beside backend keys
        (deployment.advanceTo (deployment.elapsed + duration.nanos))
      rw [beside.elapsed]
      exact beside.advanceTo _
  | sweep swept => exact beside.sweep swept
  | cancel token =>
      exact ⟨beside.epoch, beside.elapsed, congrArg (TokenForest.cancel · token) beside.tokens,
        beside.stores⟩

/-! ### What happens to one of them -/

/-- **What is not seen** under the keys may happen to one of them. -/
theorem answer (beside : alone.Beside backend keys deployment) {call : Call}
    (unseen : call.Unseen backend keys) :
    alone.Beside backend keys (Deployment.answer call deployment).2 := by
  cases call with
  | perform asked context op =>
      obtain ⟨epoch, elapsed, tokens⟩ := kept_perform deployment asked context op
      refine ⟨epoch.trans beside.epoch, elapsed.trans beside.elapsed, tokens.trans beside.tokens, ?_⟩
      obtain ⟨store, other, here, there, alike⟩ := beside.stores
      by_cases same : asked = backend
      · subst same
        obtain ⟨data, spares⟩ := unseen rfl
        obtain ⟨-, there', -⟩ := store?_perform there context op
        rw [beside.wall] at there'
        exact ⟨store, _, here, there',
          alike.trans (other.alikeOn_perform_of_spared alone.wall _ data spares)⟩
      · exact ⟨store, other, here, (store?_perform_of_ne same context op).trans there, alike⟩
  | wallClock | limitedContext _ => exact beside
  | ticket _ => exact ⟨beside.epoch, beside.elapsed, beside.tokens, beside.stores⟩
  | pause _ => exact unseen.elim

/-- So may an attempt at it that fails on the way. -/
theorem attempt (beside : alone.Beside backend keys deployment) {call : Call}
    (unseen : call.Unseen backend keys) (fault : Option CacheError) :
    alone.Beside backend keys (Deployment.attempt fault call deployment).2 := by
  unfold Deployment.attempt
  split
  · split
    · exact beside
    · exact beside.answer unseen
  · exact beside.answer unseen

end Deployment.Beside

namespace Crowd

variable {J : Type} {Result : J → Type} {program : (job : J) → Program (Result job)}
  {crowd : Crowd Result} {backend : Nat} {keys : Bytes → Prop} {alone : Deployment}

/-- **Programs that are not seen** under certain keys leave them as the others do alone. -/
theorem beside_reach
    (unseen : ∀ job, (program job).Always (Call.Unseen backend keys) fun _ => True)
    (follows : crowd.Follows program) (beside : alone.Beside backend keys crowd.deployment)
    (moves : List (Move J)) :
    (alone.reach (moves.filterMap Move.incident?)).Beside backend keys
      (crowd.reach program moves).deployment := by
  induction moves generalizing crowd alone with
  | nil => exact beside
  | cons move moves ih =>
      obtain ⟨index, fault, rfl⟩ | ⟨-, ⟨nothing, same⟩ | ⟨incident, happens, same, -⟩⟩ :=
        Move.silent_cases program crowd move
      · refine ih (follows.apply _) ?_
        obtain same | ⟨job, call, next, there, stepped⟩ := apply_work program crowd index fault
        · rw [same]
          exact beside
        · rw [stepped]
          exact beside.attempt ((unseen job).walks (follows.walks there)).2.1 fault
      · rw [List.filterMap_cons_none nothing]
        exact ih (follows.apply _) (same ▸ beside)
      · rw [List.filterMap_cons_some happens]
        exact ih (follows.apply _) (same ▸ beside.happen incident)

end Crowd

end TimedCache
