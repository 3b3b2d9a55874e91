import TimedCache.Proofs.Remote.Step
import TimedCache.Proofs.Store.Refinement

/-!
# Local and remote backends are interchangeable

A local backend and a remote one, set up with the same options and both empty, answer the same
calls alike: whatever the server chooses to do in its scans, however much time passes between the
calls, and whenever the local backend is swept.

**Runs.**  A site goes through the same events as a store.  A call is a conversation, and a sweep
concerns the store only (`Site.Runs`).

**Both directions.**  There is a run for all events that fit, so no call of the remote backend gets
stuck; and every run answers as the store does, up to the expired entries that the store counts when
it removes keys by a pattern.

Both refine the same TTL map, and nothing else is compared.
-/

namespace TimedCache

/-- Calls under contexts that have not ended, of operations that fit at their moments. -/
def Event.AllFit (options : Options) : (now : Nat) → List Event → Prop
  | _, [] => True
  | now, .call standing op :: events =>
    standing = .live ∧ op.Fits options now ∧ AllFit options now events
  | now, .advance millis :: events => AllFit options (now + millis) events
  | now, .sweep :: events => AllFit options now events

namespace Remote.Site

/-- The runs of a site: what becomes of each call, from a moment and a state on. -/
inductive Runs (plan : ScanPlan) : (now : Nat) → Site → List Event → List (Turn Site) → Prop
  | nil {now : Nat} {site : Site} : Runs plan now site [] []
  | call {now : Nat} {standing : Standing} {before after : Site} {op : Operation}
      {answer : op.Answer} {events : List Event} {turns : List (Turn Site)}
      (performs : before.Performs plan now standing op answer after)
      (rest : Runs plan now after events turns) :
      Runs plan now before (.call standing op :: events)
        (⟨now, standing, before, op, answer⟩ :: turns)
  | advance {now millis : Nat} {site : Site} {events : List Event} {turns : List (Turn Site)}
      (rest : Runs plan (now + millis) site events turns) :
      Runs plan now site (.advance millis :: events) turns
  | sweep {now : Nat} {site : Site} {events : List Event} {turns : List (Turn Site)}
      (rest : Runs plan now site events turns) : Runs plan now site (.sweep :: events) turns

variable {plan : ScanPlan} {options : Options} {now : Nat} {store : Store} {site : Site}
  {map : TtlMap}

/-- A call that fits can be performed, and in one way only: with the answer of the map. -/
theorem Mirrors.performs_iff (complete : plan.Complete)
    (space : options.namespaceText.isText = true) (mirrors : Mirrors options now site map)
    {op : Operation} (fits : op.Fits options now) :
    ∃ after : Site, Mirrors options now after (map.perform now .live op).2 ∧
      ∀ (answer : op.Answer) (other : Site), site.Performs plan now .live op answer other ↔
        answer = (map.perform now .live op).1 ∧ other = after := by
  obtain ⟨after, dialogue, mirrors'⟩ := mirrors.perform complete space fits
  refine ⟨after, mirrors', fun answer other => ?_⟩
  rw [Performs, dialogue.converses_iff, Prod.mk.injEq]
  obtain ⟨client, server⟩ := after
  obtain ⟨client', server'⟩ := other
  rw [Site.mk.injEq, and_assoc]

/-- A store that refines a map and a site that mirrors it answer alike from there on. -/
theorem runs_agree (complete : plan.Complete) (space : options.namespaceText.isText = true)
    (refines : store.Refines now map) (mirrors : Mirrors options now site map)
    {events : List Event} (fit : Event.AllFit options now events) :
    (∃ turns, Runs plan now site events turns) ∧
      ∀ turns, Runs plan now site events turns →
        List.Forall₂ Turn.Agree (Store.machine.run now store events) turns := by
  induction events generalizing now store site map with
  | nil =>
      refine ⟨⟨[], .nil⟩, fun turns runs => ?_⟩
      cases runs
      exact .nil
  | cons event events ih =>
      cases event with
      | call standing op =>
          obtain ⟨rfl, fits, fit⟩ := fit
          obtain ⟨agree, refines'⟩ := refines.perform .live op
          obtain ⟨after, mirrors', performs⟩ := mirrors.performs_iff complete space fits
          obtain ⟨⟨turns, runs⟩, all⟩ := ih refines' mirrors' fit
          constructor
          · exact ⟨_, .call ((performs _ _).mpr ⟨rfl, rfl⟩) runs⟩
          · intro turns runs
            cases runs with
            | call performed rest =>
                obtain ⟨rfl, rfl⟩ := (performs _ _).mp performed
                exact .cons (.intro agree) (all _ rest)
      | advance millis =>
          have le : now ≤ now + millis := Nat.le_add_right now millis
          obtain ⟨⟨turns, runs⟩, all⟩ := ih (refines.later le) (mirrors.later le) fit
          refine ⟨⟨turns, .advance runs⟩, fun turns runs => ?_⟩
          cases runs with
          | advance rest => exact all turns rest
      | sweep =>
          -- The store is swept alone: it refines the same map as before.
          have swept := refines.alike (store.sweep_alike now)
          obtain ⟨⟨turns, runs⟩, all⟩ := ih swept mirrors fit
          refine ⟨⟨turns, .sweep runs⟩, fun turns runs => ?_⟩
          cases runs with
          | sweep rest => exact all turns rest

/-- **Local and remote backends are interchangeable.**  Over a server that deals out its scans
completely, a remote backend gets through all events that fit, and each of its answers is that of a
local backend with the same options.  Only where keys are removed by a pattern the local backend
also counts the expired entries that it still has. -/
theorem fresh_runs_agree (plan : ScanPlan) (complete : plan.Complete) (options : Options)
    (space : options.namespaceText.isText = true) (endpoint : Bytes) (database : Int) (now : Nat)
    (events : List Event) (fit : Event.AllFit options now events) :
    (∃ turns, Runs plan now (.fresh options endpoint database) events turns) ∧
      ∀ turns, Runs plan now (.fresh options endpoint database) events turns →
        List.Forall₂ Turn.Agree (Store.machine.run now (.fresh options) events) turns :=
  runs_agree complete space (Store.refines_fresh now options)
    (mirrors_fresh options endpoint database now) fit

/-- A server that deals out every key twice, in two batches. -/
def twice : ScanPlan := fun _ keys => ⟨[(17, keys)], keys⟩

theorem twice_complete : ScanPlan.Complete twice where
  mem_keys_iff := fun scan keys key => by simp [twice, Iteration.keys]
  cursors := fun scan keys batch mem => by
    rw [List.mem_singleton.mp mem]
    show 17 ≠ 0 ∧ 17 < word64
    decide

/-- Two values, of which one has expired when both are removed by a pattern. -/
def briefEvents : List Event :=
  [.call .live (.set (utf8 "a") (utf8 "1") (.ofMillis 5)), .advance 5,
    .call .live (.setIfAbsent (utf8 "b") (utf8 "2") .zero), .call .live (.invalidate (utf8 "?")),
    .sweep]

theorem fresh_runs_agree_twice :
    ScanPlan.Complete twice ∧ Options.standard.namespaceText.isText = true ∧
      Event.AllFit .standard 0 briefEvents ∧
      (∃ turns, Runs twice 0 (.fresh .standard [] 0) briefEvents turns) ∧
      ∀ turns, Runs twice 0 (.fresh .standard [] 0) briefEvents turns →
        List.Forall₂ Turn.Agree (Store.machine.run 0 (.fresh .standard) briefEvents) turns := by
  have space : Options.standard.namespaceText.isText = true := Bytes.isText_utf8 "cache:"
  have brief : Options.standard.Keeps 0 (.ofMillis 5) := by
    intro lifetime written
    cases written
    decide
  have default : Options.standard.Keeps 5 .zero := by
    intro lifetime written
    cases written
    decide
  have fit : Event.AllFit .standard 0 briefEvents :=
    ⟨rfl, ⟨Bytes.isText_utf8 "a", brief⟩, rfl, ⟨Bytes.isText_utf8 "b", default⟩, rfl, trivial,
      trivial⟩
  exact ⟨twice_complete, space, fit,
    fresh_runs_agree twice twice_complete .standard space [] 0 0 briefEvents fit⟩

end Remote.Site

end TimedCache
