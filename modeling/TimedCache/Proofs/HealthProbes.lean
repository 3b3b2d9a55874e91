import Mathlib.Data.List.Basic
import TimedCache.Probe
import TimedCache.Proofs.Deployment.Beside
import TimedCache.Proofs.Lifetime
import TimedCache.Proofs.Text.Decimal

/-!
# Health probes beside each other

Any number of probes are under way on one backend in the process, amid everything that others do with
other keys.  Each should have a key of its own: the key is made of the wall clock and of a number that
is drawn from the counter of the health checker.

**Probes of one checker** and of its clones draw from the same counter, so they have different keys and
never disturb each other.  **Probes of different checkers** have the same key if they draw the same
number in the same millisecond.  Then the one may delete the sentinel of the other before that is read,
and the other reports a healthy backend as unhealthy (`crossed_within_a_millisecond`).  Nothing else
can go wrong (`probes_apart`): a key that is shared is shared with its sentinel, so it does no harm if
both write it.

In any case every probe ends, **nothing is left** of the probes when they have ended, and all other keys
are as the others have left them.

The proofs go by the log of all probes.  Its notes tell what was under a key (`Crowd.Records`), so the
question is only **which notes lie between** the write of a sentinel and the read of it
(`Unhindered.read_or_deleted`), and after the last write of a key (`Unhindered.lacks_of_ended`).

## Main Definitions

* `HealthChecker.Probe`, `HealthChecker.probing` — a probe of some checker, and its program
* `HealthChecker.IsProbeKey` — the keys that others leave alone
* `HealthChecker.Unhindered` — nothing fails, and no probe takes a second
* `HealthChecker.Crossed` — a probe whose sentinel another one has deleted
* `HealthChecker.Apart` — what holds of probes beside each other
-/

namespace TimedCache

namespace HealthChecker

/-! ### The keys of probes -/

/-- Whether a key begins like those of probes. -/
def IsProbeKey (key : Bytes) : Prop := utf8 "health_check:" <+: key

instance (key : Bytes) : Decidable (IsProbeKey key) :=
  inferInstanceAs (Decidable (utf8 "health_check:" <+: key))

theorem isProbeKey_probeKey (wall number : Nat) : IsProbeKey (probeKey wall number) := by
  rw [probeKey, List.append_assoc, List.append_assoc]
  exact List.prefix_append _ _

theorem probeKey_eq (wall number : Nat) :
    probeKey wall number = utf8 "health_check:" ++ (natText wall ++ 0x3A :: natText number) := by
  rw [probeKey, List.append_assoc, List.append_assoc]
  rfl

/-- **The key of a probe** tells when it was made, and the number that was drawn. -/
theorem probeKey_inj {wall number wall' number' : Nat}
    (same : probeKey wall number = probeKey wall' number') : wall = wall' ∧ number = number' := by
  rw [probeKey_eq, probeKey_eq] at same
  obtain ⟨walls, numbers⟩ := natText_append_colon_inj (List.append_cancel_left same)
  exact ⟨walls, natText_injective numbers⟩

/-! ### The program of a probe -/

/-- A probe of some checker on a backend. -/
structure Probe where
  /-- The counter of the checker and its clones. -/
  counter : Nat
  context : Context

/-- The program of a probe. -/
def probing (backend : Backend) (probe : Probe) : Program HealthReport :=
  HealthChecker.check ⟨backend, probe.counter⟩ probe.context

/-- A report at the time at which it is made. -/
def reporting (failure : Option CacheError) : Program HealthReport :=
  .ask .wallClock fun wall => .done ⟨failure, wall⟩

/-- What a probe does once the sentinel was deleted. -/
def afterDelete : Except CacheError Unit → Program HealthReport
  | .ok () => reporting none
  | .error failure => reporting (some failure)

variable (backend : Backend) (context : Context) (key : Bytes) (number : Nat)

/-- What it does once the key was read. -/
def afterGet : Except CacheError Bytes → Program HealthReport
  | .error failure => reporting (some failure)
  | .ok found =>
    if found = sentinel number then .ask (.perform backend.id context (.delete key)) afterDelete
    else reporting (some (.unavailable (utf8 "health probe read back a different value")))

/-- What it does once the sentinel was written. -/
def afterSet : Except CacheError Unit → Program HealthReport
  | .error failure => reporting (some failure)
  | .ok () => .ask (.perform backend.id context (.get key)) (afterGet backend context key number)

/-- What it does once it has its key and its number. -/
def withKey : Program HealthReport :=
  .ask (.perform backend.id context (.set key (sentinel number) sentinelLifetime))
    (afterSet backend context key number)

/-- **A probe** draws a number, looks at the clock, and goes on with its key. -/
theorem probing_eq (probe : Probe) :
    probing backend probe = .ask (.ticket probe.counter) fun number => .ask .wallClock fun wall =>
      withKey backend probe.context (probeKey wall number) number := by
  refine congrArg (Program.ask _) (funext fun number => congrArg (Program.ask _)
    (funext fun wall => congrArg (Program.ask _) (funext fun answer => ?_)))
  cases answer with
  | error failure => rfl
  | ok done =>
      refine congrArg (Program.ask _) (funext fun answer => ?_)
      cases answer with
      | error failure => rfl
      | ok found =>
          by_cases own : found = sentinel number
          · unfold afterGet
            simp only [Program.bind_done, if_pos own]
            refine congrArg (Program.ask _) (funext fun answer => ?_)
            cases answer <;> rfl
          · unfold afterGet
            simp only [Program.bind_done, if_neg own]
            rfl

/-! ### What a probe asks -/

/-- What a probe asks once it has its key and its number. -/
inductive Asks : Call → Prop
  | write : Asks (.perform backend.id context (.set key (sentinel number) sentinelLifetime))
  | read : Asks (.perform backend.id context (.get key))
  | delete : Asks (.perform backend.id context (.delete key))
  | clock : Asks .wallClock

theorem withKey_asks :
    (withKey backend context key number).Always (Asks backend context key number) fun _ => True := by
  have reports (failure : Option CacheError) :
      (reporting failure).Always (Asks backend context key number) fun _ => True :=
    ⟨.clock, fun _ => trivial⟩
  refine ⟨.write, fun answer => ?_⟩
  cases answer with
  | error failure => exact reports (some failure)
  | ok done =>
      refine ⟨.read, fun answer => ?_⟩
      cases answer with
      | error failure => exact reports (some failure)
      | ok found =>
          rw [afterGet]
          split
          · refine ⟨.delete, fun answer => ?_⟩
            cases answer with
            | error failure => exact reports (some failure)
            | ok done => exact reports none
          · exact reports _

/-- **What a probe asks**: it draws a number, and else it asks for its own key. -/
theorem probing_asks (probe : Probe) :
    (probing backend probe).Always (fun call => call = .ticket probe.counter ∨
      ∃ wall number, Asks backend probe.context (probeKey wall number) number call)
      fun _ => True := by
  rw [probing_eq]
  exact ⟨.inl rfl, fun number => ⟨.inr ⟨0, number, .clock⟩, fun wall =>
    (withKey_asks backend probe.context _ number).mono fun asks => .inr ⟨wall, number, asks⟩⟩⟩

/-- **A probe ends** after six questions at most. -/
theorem probing_brief (probe : Probe) : (probing backend probe).AsksAtMost 6 := by
  rw [probing_eq]
  intro number wall answer
  cases answer with
  | error failure => exact fun _ => trivial
  | ok done =>
      intro answer
      cases answer with
      | error failure => exact fun _ => trivial
      | ok found =>
          rw [afterGet]
          split
          · intro answer
            cases answer <;> exact fun _ => trivial
          · exact fun _ => trivial

variable {backend context key number}

/-- As far as any key is concerned, a probe writes it, deletes it or leaves it alone. -/
theorem Asks.plain {call : Call} (asks : Asks backend context key number call) (other : Bytes) :
    call.Plain backend.id other := by
  cases asks with
  | write =>
      by_cases same : key = other
      · exact .inr (.inl ⟨context, sentinel number, sentinelLifetime, by rw [same]⟩)
      · exact .inl fun _ => decide_eq_false same
  | delete =>
      by_cases same : key = other
      · exact .inr (.inr ⟨context, by rw [same]⟩)
      · exact .inl fun _ => decide_eq_false same
  | read => exact .inl fun _ => rfl
  | clock => exact .inl trivial

/-- A probe does not show under keys that are not those of probes. -/
theorem Asks.unseen {call : Call} (asks : Asks backend context key number call)
    (probeKey : IsProbeKey key) : call.Unseen backend.id fun other => ¬IsProbeKey other := by
  have ne : ∀ other, ¬IsProbeKey other → key ≠ other := fun other no same => no (same ▸ probeKey)
  cases asks with
  | write => exact fun _ => ⟨rfl, fun other no => decide_eq_false (ne other no)⟩
  | delete => exact fun _ => ⟨rfl, fun other no => decide_eq_false (ne other no)⟩
  | read => exact fun _ => ⟨rfl, fun _ _ => rfl⟩
  | clock => trivial

theorem probing_plain (backend : Backend) (probe : Probe) (key : Bytes) :
    (probing backend probe).Always (Call.Plain backend.id key) fun _ => True := by
  refine (probing_asks backend probe).mono fun asked => ?_
  obtain rfl | ⟨wall, number, asks⟩ := asked
  · exact .inl trivial
  · exact asks.plain key

theorem probing_unseen (backend : Backend) (probe : Probe) :
    (probing backend probe).Always (Call.Unseen backend.id fun key => ¬IsProbeKey key)
      fun _ => True := by
  refine (probing_asks backend probe).mono fun asked => ?_
  obtain rfl | ⟨wall, number, asks⟩ := asked
  · trivial
  · exact asks.unseen (isProbeKey_probeKey wall number)

/-! ### The course of a probe -/

section Course

variable {probe : Probe} {notes : List Note} {note : Note} {report : HealthReport}

/-- What a question of a probe changes: its own key, by its own sentinel or by a deletion. -/
theorem Asks.of_change {other : Bytes} {change : Option (Nat × Bytes × Duration)}
    (asks : Asks backend context key number note.call)
    (changed : note.change? backend.id other = some change) :
    other = key ∧ (change = some (note.wall, sentinel number, sentinelLifetime) ∨
      change = none ∧ note.call = .perform backend.id context (.delete key)) := by
  have leaves (spares : note.call.Leaves backend.id other) : False := by
    cases (change?_of_leaves spares).symm.trans changed
  obtain ⟨worker, wall, call, answer⟩ := note
  cases asks with
  | write =>
      by_cases same : key = other
      · subst same
        cases answer with
        | error failure => cases (change?_of_error ..).symm.trans changed
        | ok done =>
            have stored := Note.change?_written worker wall backend.id context key (sentinel number)
              sentinelLifetime
            exact ⟨rfl, .inl (Option.some.inj (changed.symm.trans stored))⟩
      · exact (leaves fun _ => decide_eq_false same).elim
  | delete =>
      by_cases same : key = other
      · subst same
        have unstored : Note.storedAt? backend.id key
            ⟨worker, wall, .perform backend.id context (.delete key), answer⟩ = none := by
          cases answer <;> rfl
        exact ⟨rfl, .inr ⟨(Note.storedAt?_of_change? changed).symm.trans unstored, rfl⟩⟩
      · exact (leaves fun _ => decide_eq_false same).elim
  | read => exact (leaves fun _ => rfl).elim
  | clock => exact (leaves trivial).elim

/-- **Who changes a key** has drawn its number. -/
theorem exists_draw {rest : Program HealthReport}
    (walks : (probing backend probe).Walks notes rest) (mem : note ∈ notes)
    {change : Option (Nat × Bytes × Duration)}
    (changed : note.change? backend.id key = some change) :
    ∃ wall number, key = probeKey wall number ∧
      (∃ draw ∈ notes, draw.drawn? probe.counter = some number) ∧
      (change = some (note.wall, sentinel number, sentinelLifetime) ∨
        change = none ∧ note.call = .perform backend.id probe.context (.delete key)) := by
  rw [probing_eq] at walks
  cases walks with
  | stay => cases mem
  | @step worker wall _ number _ notes _ walks =>
      cases walks with
      | stay =>
          rw [List.mem_singleton.mp mem] at changed
          cases changed
      | @step worker' wall' _ time _ body _ walks =>
          obtain rfl | rfl | mem := by simpa only [List.mem_cons] using mem
          · cases changed
          · cases changed
          · obtain ⟨asked, -⟩ := (withKey_asks backend probe.context _ number).walks walks
            obtain ⟨rfl, made⟩ := (asked note mem).of_change changed
            exact ⟨time, number, rfl, ⟨_, List.mem_cons_self, if_pos rfl⟩, made⟩

section Notes

variable (backend context key number)

/-- The note of the write of a sentinel. -/
abbrev writeNote (worker wall : Nat) (answer : Except CacheError Unit) : Note :=
  ⟨worker, wall, .perform backend.id context (.set key (sentinel number) sentinelLifetime), answer⟩

/-- The note of the read of it. -/
abbrev readNote (worker wall : Nat) (answer : Except CacheError Bytes) : Note :=
  ⟨worker, wall, .perform backend.id context (.get key), answer⟩

/-- The note of the deletion of it. -/
abbrev deleteNote (worker wall : Nat) (answer : Except CacheError Unit) : Note :=
  ⟨worker, wall, .perform backend.id context (.delete key), answer⟩

/-- The note of a look at the clock. -/
abbrev lookNote (worker wall time : Nat) : Note := ⟨worker, wall, .wallClock, time⟩

/-- The notes of a probe that has its key, when it has ended, and the failure that it reports. -/
inductive Ended : List Note → Option CacheError → Prop
  | unwritten {w₁ w₂ t₁ t₂ time : Nat} {failure : CacheError} :
      Ended [writeNote backend context key number w₁ t₁ (.error failure), lookNote w₂ t₂ time]
        (some failure)
  | unread {w₁ w₂ w₃ t₁ t₂ t₃ time : Nat} {failure : CacheError} :
      Ended [writeNote backend context key number w₁ t₁ (.ok ()),
          readNote backend context key w₂ t₂ (.error failure), lookNote w₃ t₃ time]
        (some failure)
  | different {w₁ w₂ w₃ t₁ t₂ t₃ time : Nat} {found : Bytes} (ne : found ≠ sentinel number) :
      Ended [writeNote backend context key number w₁ t₁ (.ok ()),
          readNote backend context key w₂ t₂ (.ok found), lookNote w₃ t₃ time]
        (some (.unavailable (utf8 "health probe read back a different value")))
  | undeleted {w₁ w₂ w₃ w₄ t₁ t₂ t₃ t₄ time : Nat} {failure : CacheError} :
      Ended [writeNote backend context key number w₁ t₁ (.ok ()),
          readNote backend context key w₂ t₂ (.ok (sentinel number)),
          deleteNote backend context key w₃ t₃ (.error failure), lookNote w₄ t₄ time]
        (some failure)
  | through {w₁ w₂ w₃ w₄ t₁ t₂ t₃ t₄ time : Nat} :
      Ended [writeNote backend context key number w₁ t₁ (.ok ()),
          readNote backend context key w₂ t₂ (.ok (sentinel number)),
          deleteNote backend context key w₃ t₃ (.ok ()), lookNote w₄ t₄ time]
        none

end Notes

/-- A report comes with a look at the clock. -/
theorem walks_reporting {failure : Option CacheError}
    (walks : (reporting failure).Walks notes (.done report)) :
    ∃ worker wall time, notes = [lookNote worker wall time] ∧ report.failure = failure := by
  cases walks with
  | @step worker wall _ time _ _ _ walks =>
      cases walks
      exact ⟨worker, wall, time, rfl, rfl⟩

/-- **A probe that has ended** has drawn a number, looked at the clock, and come to one of five ends. -/
theorem ended_of_walks (walks : (probing backend probe).Walks notes (.done report)) :
    ∃ w₁ w₂ t₁ t₂ number time body,
      notes = ⟨w₁, t₁, .ticket probe.counter, number⟩ :: lookNote w₂ t₂ time :: body ∧
      Ended backend probe.context (probeKey time number) number body report.failure := by
  rw [probing_eq] at walks
  cases walks with
  | @step w₁ t₁ _ number _ notes _ walks =>
      cases walks with
      | @step w₂ t₂ _ time _ body _ walks =>
          refine ⟨w₁, w₂, t₁, t₂, number, time, body, rfl, ?_⟩
          cases walks with
          | @step _ _ _ answer _ body _ walks =>
              cases answer with
              | error failure =>
                  obtain ⟨_, _, _, rfl, reported⟩ := walks_reporting walks
                  rw [reported]
                  exact .unwritten
              | ok done =>
                  cases walks with
                  | @step _ _ _ answer _ body _ walks =>
                      cases answer with
                      | error failure =>
                          obtain ⟨_, _, _, rfl, reported⟩ := walks_reporting walks
                          rw [reported]
                          exact .unread
                      | ok found =>
                          rw [afterGet] at walks
                          split at walks
                          next own =>
                            subst own
                            cases walks with
                            | @step _ _ _ answer _ body _ walks =>
                                cases answer with
                                | error failure =>
                                    obtain ⟨_, _, _, rfl, reported⟩ := walks_reporting walks
                                    rw [reported]
                                    exact .undeleted
                                | ok done =>
                                    obtain ⟨_, _, _, rfl, reported⟩ := walks_reporting walks
                                    rw [reported]
                                    exact .through
                          next ne =>
                            obtain ⟨_, _, _, rfl, reported⟩ := walks_reporting walks
                            rw [reported]
                            exact .different ne

end Course

/-! ### Probes beside each other -/

/-- Probes on a backend, from the first one on. -/
def crowdOf (backend : Backend) (deployment : Deployment) (moves : List (Crowd.Move Probe)) :
    Crowd fun _ : Probe => HealthReport :=
  (Crowd.fresh _ deployment).reach (probing backend) moves

/-- **Probes that nobody hinders**: nothing fails on the way, and others leave alone all keys that begin
like those of probes. -/
structure Unhindered (backend : Backend) (deployment : Deployment)
    (moves : List (Crowd.Move Probe)) : Prop where
  faultless : ∀ move ∈ moves, move.Faultless
  leaves : ∀ move ∈ moves, ∀ key, IsProbeKey key → move.Leaves backend.id key
  /-- Every checker has its counter. -/
  counters : ∀ probe, .start probe ∈ moves → probe.counter < deployment.tickets.size
  /-- No context of a probe ends. -/
  live : ∀ probe, .start probe ∈ moves → ∀ front, front <+: moves →
    (crowdOf backend deployment front).deployment.standing probe.context = .live
  /-- Less than a second passes during any one probe. -/
  prompt : ∀ first ∈ (crowdOf backend deployment moves).log,
    ∀ second ∈ (crowdOf backend deployment moves).log, first.worker = second.worker →
      second.wall < first.wall + 1000
  /-- The clock has not come to the last representable time. -/
  early : ∀ note ∈ (crowdOf backend deployment moves).log, note.wall < word64 - 1

/-- What a probe has come to, by the notes since it wrote its sentinel: somebody has deleted that, and
before the probe has read it if it reports a failure. -/
inductive Outcome (backend : Backend) (index : Nat) (key : Bytes) :
    List Note → Option CacheError → Prop
  | healthy {newer : List Note} {delete : Note} (mem : delete ∈ newer)
      (deletes : delete.change? backend.id key = some none) : Outcome backend index key newer none
  | unread {middle behind : List Note} {read delete : Note} {context : Context}
      (reader : read.worker = index) (reads : read.call = .perform backend.id context (.get key))
      (others : notesOf index middle = []) (mem : delete ∈ middle)
      (deletes : delete.change? backend.id key = some none) :
      Outcome backend index key (middle ++ read :: behind) (some (.notFound key))

/-- A sentinel does not outlast the probe. -/
theorem Outcome.exists_delete {backend : Backend} {index : Nat} {key : Bytes} {newer : List Note}
    {failure : Option CacheError} (outcome : Outcome backend index key newer failure) :
    ∃ delete ∈ newer, delete.change? backend.id key = some none := by
  cases outcome with
  | healthy mem deletes => exact ⟨_, mem, deletes⟩
  | unread _ _ _ mem deletes => exact ⟨_, List.mem_append_left _ mem, deletes⟩

/-- **The course of a probe** that has ended: it has written its sentinel, and nothing else. -/
structure Course (backend : Backend) (index : Nat) (context : Context) (key : Bytes)
    (failure : Option CacheError) (older : List Note) (write : Note) (newer : List Note) : Prop where
  writes : ∃ wall data,
    write = ⟨index, wall, .perform backend.id context (.set key data sentinelLifetime), .ok ()⟩
  once : ∀ note ∈ older ++ newer, note.worker = index → note.stored? backend.id = none
  outcome : Outcome backend index key newer failure

namespace Unhindered

variable {backend : Backend} {deployment : Deployment} {initial : Store}
  {moves : List (Crowd.Move Probe)} {key : Bytes} {note : Note}

theorem follows (backend : Backend) (deployment : Deployment) (moves : List (Crowd.Move Probe)) :
    (crowdOf backend deployment moves).Follows (probing backend) :=
  (Crowd.follows_fresh (probing backend) deployment).reach moves

/-- Whoever is at work was started. -/
theorem started {index : Nat} {worker : Worker fun _ : Probe => HealthReport}
    (there : (crowdOf backend deployment moves).workers[index]? = some worker) :
    .start worker.job ∈ moves :=
  Crowd.started (P := fun probe => .start probe ∈ moves) (List.forall_mem_nil _) (fun _ => id) worker
    (List.mem_of_getElem? there)

/-- Whoever has noted something is at work. -/
theorem exists_worker (mem : note ∈ (crowdOf backend deployment moves).log) :
    ∃ worker, (crowdOf backend deployment moves).workers[note.worker]? = some worker :=
  ⟨_, List.getElem?_eq_getElem ((follows backend deployment moves).known note mem)⟩

/-- **At every moment** the log says what is under a key of probes. -/
theorem records (unhindered : Unhindered backend deployment moves)
    (serves : deployment.Serves backend initial) (probeKey : IsProbeKey key)
    {front : List (Crowd.Move Probe)} (before : front <+: moves) :
    (crowdOf backend deployment front).Records backend initial key :=
  (Crowd.records_fresh serves key).reach serves.options
    (Crowd.follows_fresh (probing backend) deployment) (fun probe => probing_plain backend probe key)
    (fun move mem => unhindered.faultless move (before.mem mem))
    fun move mem => unhindered.leaves move (before.mem mem) key probeKey

/-- No operation of a probe comes to nothing because of its context. -/
theorem uncut (unhindered : Unhindered backend deployment moves)
    (serves : deployment.Serves backend initial)
    (mem : note ∈ (crowdOf backend deployment moves).log) : note.isCut = false := by
  obtain ⟨worker, there⟩ := exists_worker mem
  have log : ((Crowd.fresh (fun _ : Probe => HealthReport) deployment).reach (probing backend)
      moves).log = [] ++ (crowdOf backend deployment moves).log := rfl
  obtain ⟨front, before, answered⟩ := Crowd.exists_answer_of_noted unhindered.faultless log mem
  have live := unhindered.live worker.job (started there) front before
  obtain drawn | ⟨time, number, asks⟩ := ((probing_asks backend worker.job).walks
    ((follows backend deployment moves).walks there)).1 note (mem_notesOf.mpr ⟨mem, rfl⟩)
  · obtain ⟨_, _, call, answer⟩ := note
    cases drawn
    rfl
  · have shows := (unhindered.records serves (isProbeKey_probeKey time number) before).bears.shows
    obtain ⟨store, served, -⟩ := id shows
    obtain ⟨_, _, call, answer⟩ := note
    cases asks with
    | write => cases answered.trans (served.perform_set live _ _ _).1; rfl
    | read =>
        have told := answered.trans (shows.perform_get live)
        generalize Option.map _ _ = found at told
        subst told
        cases found <;> rfl
    | delete => cases answered.trans (served.perform_delete live _).1; rfl
    | clock => rfl

/-- **What a note tells** of a key, by what is before it. -/
theorem tells (unhindered : Unhindered backend deployment moves)
    (serves : deployment.Serves backend initial) (probeKey : IsProbeKey key)
    {older newer : List Note}
    (split : (crowdOf backend deployment moves).log = older ++ note :: newer) :
    note.Tells backend.id key (shownBy initial backend.id key older) := by
  refine (unhindered.records serves probeKey (List.prefix_refl moves)).tells older note newer split
    (unhindered.uncut serves ?_)
  rw [split]
  exact List.mem_append_cons_self

/-- **Whoever changes a key** has drawn its number, and the key is its own. -/
theorem exists_draw (mem : note ∈ (crowdOf backend deployment moves).log)
    {change : Option (Nat × Bytes × Duration)}
    (changed : note.change? backend.id key = some change) :
    ∃ worker wall number, (crowdOf backend deployment moves).workers[note.worker]? = some worker ∧
      key = probeKey wall number ∧
      (∃ draw ∈ (crowdOf backend deployment moves).log, draw.worker = note.worker ∧
        draw.drawn? worker.job.counter = some number) ∧
      (change = some (note.wall, sentinel number, sentinelLifetime) ∨
        change = none ∧ note.call = .perform backend.id worker.job.context (.delete key)) := by
  obtain ⟨worker, there⟩ := exists_worker mem
  obtain ⟨wall, number, same, ⟨draw, drawn, number'⟩, made⟩ :=
    HealthChecker.exists_draw ((follows backend deployment moves).walks there)
      (mem_notesOf.mpr ⟨mem, rfl⟩) changed
  obtain ⟨mem', worker'⟩ := mem_notesOf.mp drawn
  exact ⟨worker, wall, number, there, same, ⟨draw, mem', worker', number'⟩, made⟩

/-- A sentinel that was written in the last second is read. -/
theorem tells_get (unhindered : Unhindered backend deployment moves)
    (serves : deployment.Serves backend initial) (probeKey : IsProbeKey key)
    {older newer : List Note} {worker wall written : Nat} {context : Context}
    {answer : Except CacheError Bytes} {data : Bytes}
    (split : (crowdOf backend deployment moves).log =
      older ++ readNote backend context key worker wall answer :: newer)
    (last : lastChange? backend.id key older = some (some (written, data, sentinelLifetime)))
    (recent : wall < written + 1000) : answer = .ok data := by
  have told := unhindered.tells serves probeKey split rfl rfl
  have early : wall < word64 - 1 :=
    unhindered.early (readNote backend context key worker wall answer)
      (by rw [split]; exact List.mem_append_cons_self)
  have lives : initial.options.lifetime sentinelLifetime = some sentinelLifetime :=
    initial.options.lifetime_of_isZero_eq_false (by decide)
  have unexpired : (initial.newEntry written data sentinelLifetime).isExpired wall = false := by
    rw [Store.newEntry, lives, Duration.isExpired_write_iff, Duration.expiry_eq_min]
    have second : sentinelLifetime.wholeMillis % word64 = 1000 := by decide
    omega
  rw [shownBy, last] at told
  dsimp only at told
  rw [Option.filter_some, unexpired] at told
  exact told

/-- **A sentinel is read**, or somebody else has deleted it since it was written.  It may have been written
once more in between; but whoever did that has the same key, so the sentinel is the same. -/
theorem read_or_deleted (unhindered : Unhindered backend deployment moves)
    (serves : deployment.Serves backend initial) {front middle newer : List Note}
    {index wall wall' time number : Nat} {context context' : Context}
    {answer : Except CacheError Bytes}
    (split : (crowdOf backend deployment moves).log = front ++
      writeNote backend context (probeKey time number) number index wall (.ok ()) ::
        (middle ++ readNote backend context' (probeKey time number) index wall' answer :: newer)) :
    answer = .ok (sentinel number) ∨
      answer = .error (.notFound (probeKey time number)) ∧
        ∃ delete ∈ middle, delete.change? backend.id (probeKey time number) = some none := by
  have probe := isProbeKey_probeKey time number
  set key := probeKey time number
  set write : Note := writeNote backend context key number index wall (.ok ())
  set read : Note := readNote backend context' key index wall' answer
  have divided : (crowdOf backend deployment moves).log =
      (front ++ [write] ++ middle) ++ read :: newer := by
    rw [split, List.append_assoc, List.append_assoc]
    rfl
  have known : ∀ {note}, note = write ∨ note ∈ middle ∨ note = read →
      note ∈ (crowdOf backend deployment moves).log := by
    intro note within
    rw [split]
    exact List.mem_append_right front (by simpa using by tauto)
  have recent : wall' < wall + 1000 :=
    unhindered.prompt write (known (.inl rfl)) read (known (.inr (.inr rfl))) rfl
  have last : lastChange? backend.id key (front ++ [write] ++ middle) =
      (lastOf (Note.change? backend.id key) middle).or
        (some (some (wall, sentinel number, sentinelLifetime))) := by
    rw [lastChange?, lastOf_append,
      lastOf_concat (Note.change?_written index wall backend.id context key _ _)]
  cases since : lastOf (Note.change? backend.id key) middle with
  | none =>
      -- What is read is what the probe itself has written.
      rw [since, Option.none_or] at last
      exact .inl (unhindered.tells_get serves probe divided last recent)
  | some change =>
      rw [since, Option.some_or] at last
      obtain ⟨earlier, note, later, rfl, changed, -⟩ := exists_note_of_lastOf since
      have mem : note ∈ earlier ++ note :: later := List.mem_append_cons_self
      obtain ⟨_, time', number', -, same, -, rfl | ⟨rfl, -⟩⟩ :=
        exists_draw (known (.inr (.inl mem))) changed
      · -- It was written again: the number is in the key, so it is the same sentinel, and a later one.
        obtain ⟨-, rfl⟩ := probeKey_inj same
        have ordered : ((crowdOf backend deployment moves).log).Pairwise
            fun first second => first.wall ≤ second.wall :=
          Crowd.walls_ordered deployment unhindered.faultless
        have behind : wall ≤ note.wall := by
          rw [split] at ordered
          exact List.rel_of_pairwise_cons (List.pairwise_append.mp ordered).2.1
            (List.mem_append_left _ mem)
        exact .inl (unhindered.tells_get serves probe divided last (by omega))
      · have told := unhindered.tells serves probe divided rfl rfl
        rw [shownBy, last] at told
        exact .inr ⟨told, note, mem, changed⟩

/-- A sentinel is written. -/
theorem answered_set (unhindered : Unhindered backend deployment moves)
    (serves : deployment.Serves backend initial) (probeKey : IsProbeKey key)
    {worker wall number : Nat} {context : Context} {answer : Except CacheError Unit}
    (mem : writeNote backend context key number worker wall answer ∈
      (crowdOf backend deployment moves).log) : answer = .ok () := by
  obtain ⟨older, newer, split⟩ := List.append_of_mem mem
  exact unhindered.tells serves probeKey split rfl rfl

/-- A sentinel is deleted. -/
theorem answered_delete (unhindered : Unhindered backend deployment moves)
    (serves : deployment.Serves backend initial) (probeKey : IsProbeKey key) {worker wall : Nat}
    {context : Context} {answer : Except CacheError Unit}
    (mem : deleteNote backend context key worker wall answer ∈
      (crowdOf backend deployment moves).log) : answer = .ok () := by
  obtain ⟨older, newer, split⟩ := List.append_of_mem mem
  exact unhindered.tells serves probeKey split rfl rfl

/-- **Since a probe wrote its sentinel**, it has written nothing else; and if it has read the key, it has
found the sentinel, or somebody else had deleted that. -/
theorem since_written (unhindered : Unhindered backend deployment moves)
    (serves : deployment.Serves backend initial) {index w w' wall wall' time number : Nat}
    {context context' : Context} {answer : Except CacheError Bytes} {front rest : List Note}
    (own : notesOf index (crowdOf backend deployment moves).log = front ++
      writeNote backend context (probeKey time number) number w wall (.ok ()) ::
        readNote backend context' (probeKey time number) w' wall' answer :: rest)
    (unstored : ∀ note ∈ front ++ rest, note.stored? backend.id = none) :
    ∃ older middle behind,
      (crowdOf backend deployment moves).log = older ++
        writeNote backend context (probeKey time number) number index wall (.ok ()) ::
          (middle ++ readNote backend context' (probeKey time number) index wall' answer :: behind) ∧
      notesOf index middle = [] ∧ notesOf index behind = rest ∧
      (∀ note ∈ older ++
          (middle ++ readNote backend context' (probeKey time number) index wall' answer :: behind),
        note.worker = index → note.stored? backend.id = none) ∧
      (answer = .ok (sentinel number) ∨ answer = .error (.notFound (probeKey time number)) ∧
        ∃ delete ∈ middle, delete.change? backend.id (probeKey time number) = some none) := by
  have noted : ∀ {note}, note ∈ notesOf index (crowdOf backend deployment moves).log →
      note.worker = index := fun mem => (mem_notesOf.mp mem).2
  rw [own] at noted
  obtain rfl : w = index := noted (List.mem_append_right front List.mem_cons_self)
  obtain rfl : w' = w := noted (List.mem_append_right front
    (List.mem_cons_of_mem _ List.mem_cons_self))
  obtain ⟨older, middle, behind, split, before, between, after⟩ := exists_splits_of_notesOf own
  refine ⟨older, middle, behind, split, between, after, fun note mem same => ?_,
    unhindered.read_or_deleted serves split⟩
  set read : Note := readNote backend context' (probeKey time number) w' wall' answer
  have reader : notesOf w' (read :: behind) = read :: rest :=
    (notesOf_cons_own read behind).trans (congrArg (read :: ·) after)
  have mine := mem_notesOf.mpr ⟨mem, same⟩
  rw [notesOf_append, notesOf_append, before, between, List.nil_append, reader] at mine
  obtain here | rfl | there := by simpa only [List.mem_append, List.mem_cons] using mine
  · exact unstored note (List.mem_append_left rest here)
  · rfl
  · exact unstored note (List.mem_append_right front there)

/-- **Every probe that has ended** has come to its end in one of two ways. -/
theorem course (unhindered : Unhindered backend deployment moves)
    (serves : deployment.Serves backend initial) {index : Nat} {probe : Probe}
    {report : HealthReport}
    (ended : (crowdOf backend deployment moves).workers[index]? = some ⟨probe, .done report⟩) :
    ∃ time number older write newer,
      (crowdOf backend deployment moves).log = older ++ write :: newer ∧
      (∃ draw ∈ (crowdOf backend deployment moves).log, draw.worker = index ∧
        draw.drawn? probe.counter = some number) ∧
      Course backend index probe.context (probeKey time number) report.failure older write newer := by
  obtain ⟨w₁, w₂, t₁, t₂, number, time, body, own, through⟩ :=
    ended_of_walks ((follows backend deployment moves).walks ended)
  have isKey := isProbeKey_probeKey time number
  have noted : ∀ note ∈ notesOf index (crowdOf backend deployment moves).log,
      note ∈ (crowdOf backend deployment moves).log ∧ note.worker = index :=
    fun _ => mem_notesOf.mp
  rw [own, List.forall_mem_cons, List.forall_mem_cons] at noted
  obtain ⟨⟨known, drawer⟩, -, noted⟩ := noted
  refine ⟨time, number, ?_⟩
  generalize report.failure = failure at through
  suffices ∃ older write newer, (crowdOf backend deployment moves).log = older ++ write :: newer ∧
      Course backend index probe.context (probeKey time number) failure older write newer by
    obtain ⟨older, write, newer, split, course⟩ := this
    exact ⟨older, write, newer, split, ⟨_, known, drawer, if_pos rfl⟩, course⟩
  have since {w w' wall wall' : Nat} {answer : Except CacheError Bytes} {rest : List Note} :=
    @since_written _ _ _ _ unhindered serves index w w' wall wall' time number probe.context
      probe.context answer [⟨w₁, t₁, .ticket probe.counter, number⟩, lookNote w₂ t₂ time] rest
  cases through with
  | unwritten =>
      rw [List.forall_mem_cons] at noted
      cases unhindered.answered_set serves isKey noted.1.1
  | unread =>
      obtain ⟨older, middle, behind, split, between, -, once, read | ⟨read, delete, mem, deletes⟩⟩ :=
        since own (by simp [Note.stored?])
      · cases read
      · cases read
        exact ⟨older, _, _, split, ⟨_, _, rfl⟩, once, .unread rfl rfl between mem deletes⟩
  | different ne =>
      obtain ⟨-, -, -, -, -, -, -, read | ⟨read, -⟩⟩ := since own (by simp [Note.stored?])
      · cases read
        exact absurd rfl ne
      · cases read
  | undeleted =>
      rw [List.forall_mem_cons, List.forall_mem_cons, List.forall_mem_cons] at noted
      cases unhindered.answered_delete serves isKey noted.2.2.1.1
  | through =>
      obtain ⟨older, middle, behind, split, -, after, once, -⟩ := since own (by simp [Note.stored?])
      have mem := mem_notesOf.mp (after ▸ List.mem_cons_self)
      exact ⟨older, _, _, split, ⟨_, _, rfl⟩, once, .healthy
        (List.mem_append_right middle (List.mem_cons_of_mem _ mem.1)) (Note.change?_deleted ..)⟩

end Unhindered

/-- **A sentinel that another probe has deleted** between the write and the read of it.  It is a probe of
another checker, with the same key. -/
def Crossed (backend : Backend) (crowd : Crowd fun _ : Probe => HealthReport) (index : Nat)
    (probe : Probe) (key : Bytes) : Prop :=
  ∃ other worker, crowd.workers[other]? = some worker ∧ worker.job.counter ≠ probe.counter ∧
    ∃ write delete read, [write, delete, read].Sublist crowd.log ∧
      (write.worker = index ∧ ∃ context data ttl,
        write.call = .perform backend.id context (.set key data ttl)) ∧
      (delete.worker = other ∧ ∃ context, delete.call = .perform backend.id context (.delete key)) ∧
      (read.worker = index ∧ ∃ context, read.call = .perform backend.id context (.get key))

/-- **Probes beside each other**: what they report, and what they leave. -/
structure Apart (backend : Backend) (deployment : Deployment) (initial : Store)
    (moves : List (Crowd.Move Probe)) : Prop where
  /-- A probe that was started ends when it was its turn six times. -/
  ends : ∀ {probe : Probe} {front back : List (Crowd.Move Probe)},
    moves = front ++ .start probe :: back →
    6 ≤ back.countP (Crowd.Move.isWork (crowdOf backend deployment front).workers.length) →
      ∃ report, (crowdOf backend deployment moves).workers[
        (crowdOf backend deployment front).workers.length]? = some ⟨probe, .done report⟩
  /-- A probe reports a healthy backend, unless it was crossed. -/
  reports : ∀ {index : Nat} {probe : Probe} {report : HealthReport},
    (crowdOf backend deployment moves).workers[index]? = some ⟨probe, .done report⟩ →
      report.isHealthy = true ∨ ∃ key, report.failure = some (.notFound key) ∧
        Crossed backend (crowdOf backend deployment moves) index probe key
  /-- Probes of one checker and its clones are not crossed. -/
  clones : ∀ {index : Nat} {probe : Probe} {report : HealthReport},
    (∀ worker ∈ (crowdOf backend deployment moves).workers,
      worker.job.counter = probe.counter) →
    (crowdOf backend deployment moves).workers[index]? = some ⟨probe, .done report⟩ →
      report.isHealthy = true
  /-- When all probes have ended, no key of theirs is left, not even an expired one. -/
  clean : (∀ worker ∈ (crowdOf backend deployment moves).workers,
      ∃ report, worker.rest = .done report) →
    ∀ key, IsProbeKey key →
      (initial.Lacks key ∨ ∃ note ∈ (crowdOf backend deployment moves).log, ∃ data ttl,
        note.stored? backend.id = some (key, data, ttl)) →
      (crowdOf backend deployment moves).deployment.Lacks backend.id key
  /-- At every time all other keys show what they would show if there were no probes. -/
  others : (deployment.reach (moves.filterMap Crowd.Move.incident?)).Beside backend.id
    (fun key => ¬IsProbeKey key) (crowdOf backend deployment moves).deployment

namespace Unhindered

variable {backend : Backend} {deployment : Deployment} {initial : Store}
  {moves : List (Crowd.Move Probe)} {key : Bytes}

/-- **Who deletes a sentinel in between** has drawn the same number from another counter. -/
theorem crossed (unhindered : Unhindered backend deployment moves) {index time number : Nat}
    {probe : Probe} {rest : Program HealthReport} {failure : CacheError} {older newer : List Note}
    {write draw : Note}
    (there : (crowdOf backend deployment moves).workers[index]? = some ⟨probe, rest⟩)
    (split : (crowdOf backend deployment moves).log = older ++ write :: newer)
    (mem : draw ∈ (crowdOf backend deployment moves).log) (drawer : draw.worker = index)
    (drawn : draw.drawn? probe.counter = some number)
    (course : Course backend index probe.context (probeKey time number) (some failure) older write
      newer) :
    failure = .notFound (probeKey time number) ∧
      Crossed backend (crowdOf backend deployment moves) index probe (probeKey time number) := by
  obtain ⟨⟨wall, data, written⟩, -, outcome⟩ := course
  cases outcome with
  | @unread middle behind read delete context reader reads others between deletes =>
      have known : delete ∈ (crowdOf backend deployment moves).log := by
        rw [split]
        exact List.mem_append_right older
          (List.mem_cons_of_mem _ (List.mem_append_left _ between))
      obtain ⟨worker, _, number', at_, same, ⟨draw', mem', drawer', drawn'⟩, ⟨⟨⟩⟩ | ⟨-, called⟩⟩ :=
        exists_draw known deletes
      obtain ⟨-, rfl⟩ := probeKey_inj same
      refine ⟨rfl, delete.worker, worker, at_, fun counter => ?_, write, delete, read,
        ?_, ⟨congrArg Note.worker written, _, _, _, congrArg Note.call written⟩, ⟨rfl, _, called⟩,
        reader, _, reads⟩
      · -- From one counter nobody else has drawn the number.
        rw [counter] at drawn'
        have twice : draw = draw' := Crowd.eq_of_drawn?
          (unhindered.counters probe (started there)) unhindered.faultless mem mem' drawn drawn'
        have own : delete ∈ notesOf index middle :=
          mem_notesOf.mpr ⟨between, by rw [← drawer', ← twice, drawer]⟩
        rw [others] at own
        cases own
      · rw [split]
        refine List.Sublist.trans ?_ (List.sublist_append_right older _)
        exact ((List.singleton_sublist.mpr between).append
          (List.singleton_sublist.mpr List.mem_cons_self)).cons_cons _

/-- **Nothing is left**: what was last written under a key of probes was deleted by somebody. -/
theorem lacks_of_ended (unhindered : Unhindered backend deployment moves)
    (serves : deployment.Serves backend initial)
    (ended : ∀ worker ∈ (crowdOf backend deployment moves).workers,
      ∃ report, worker.rest = .done report)
    (isKey : IsProbeKey key)
    (touched : initial.Lacks key ∨ ∃ note ∈ (crowdOf backend deployment moves).log, ∃ data ttl,
      note.stored? backend.id = some (key, data, ttl)) :
    (crowdOf backend deployment moves).deployment.Lacks backend.id key := by
  refine (unhindered.records serves isKey (List.prefix_refl moves)).bears.lacks ?_
  rw [shownBy]
  cases last : lastChange? backend.id key (crowdOf backend deployment moves).log with
  | none =>
      obtain lacks | ⟨note, mem, data, ttl, stored⟩ := touched
      · exact lacks
      · have stored := Note.storedAt?_eq_some_iff.mpr ⟨rfl, stored⟩
        exact absurd last (lastOf_ne_none mem (Note.change?_of_storedAt? stored))
  | some change =>
      cases change with
      | none => rfl
      | some stored =>
          obtain ⟨older, final, quiet, split, changed, silent⟩ := exists_note_of_lastOf last
          have mem : final ∈ (crowdOf backend deployment moves).log := by
            rw [split]
            exact List.mem_append_cons_self
          obtain ⟨wall, data, ttl⟩ := stored
          obtain ⟨-, stored⟩ := Note.storedAt?_eq_some_iff.mp (Note.storedAt?_of_change? changed)
          obtain ⟨⟨probe, rest⟩, there⟩ := exists_worker mem
          obtain ⟨report, rfl : rest = .done report⟩ := ended _ (List.mem_of_getElem? there)
          obtain ⟨time, number, front, write, newer, split', -, ⟨_, _, rfl⟩, once, outcome⟩ :=
            unhindered.course serves there
          -- A probe writes once, so this is its write; but since then somebody has deleted the key.
          have unique : final ∉ front ++ newer := fun within => by
            cases stored.symm.trans (once final within rfl)
          rw [List.mem_append, not_or] at unique
          obtain ⟨rfl, same, rfl⟩ :=
            (List.append_cons_inj_of_notMem unique.1 unique.2).mp (split'.symm.trans split)
          rw [← same, Note.stored?, if_pos rfl] at stored
          cases stored
          obtain ⟨delete, within, deletes⟩ := outcome.exists_delete
          cases (silent delete within).symm.trans deletes

/-- **A probe that has ended** reports a healthy backend, unless it was crossed. -/
theorem reports (unhindered : Unhindered backend deployment moves)
    (serves : deployment.Serves backend initial) {index : Nat} {probe : Probe}
    {report : HealthReport}
    (ended : (crowdOf backend deployment moves).workers[index]? = some ⟨probe, .done report⟩) :
    report.isHealthy = true ∨ ∃ key, report.failure = some (.notFound key) ∧
      Crossed backend (crowdOf backend deployment moves) index probe key := by
  obtain ⟨time, number, older, write, newer, split, ⟨draw, mem, drawer, drawn⟩, course⟩ :=
    unhindered.course serves ended
  cases failed : report.failure with
  | none => exact .inl (congrArg Option.isNone failed)
  | some failure =>
      rw [failed] at course
      obtain ⟨rfl, crossed⟩ := unhindered.crossed ended split mem drawer drawn course
      exact .inr ⟨_, rfl, crossed⟩

end Unhindered

/-- **Probes stay apart**: they end, they report a healthy backend, unless they are crossed by probes of other
checkers; they leave nothing behind, and do not show under other keys. -/
theorem probes_apart {backend : Backend} {deployment : Deployment} {initial : Store}
    (serves : deployment.Serves backend initial) {moves : List (Crowd.Move Probe)}
    (unhindered : Unhindered backend deployment moves) :
    Apart backend deployment initial moves where
  ends := fun {probe front back} split turns => by
    have started : ((crowdOf backend deployment front).apply (probing backend)
        (.start probe)).workers[(crowdOf backend deployment front).workers.length]? =
          some ⟨probe, probing backend probe⟩ := List.getElem?_concat_length
    rw [split, crowdOf, Crowd.reach_append]
    exact Crowd.ended_of_turns started (probing_brief backend probe) turns
  reports := unhindered.reports serves
  clones := fun same ended => by
    obtain healthy | ⟨key, -, other, worker, there, ne, -⟩ := unhindered.reports serves ended
    · exact healthy
    · exact absurd (same worker (List.mem_of_getElem? there)) ne
  clean := fun ended _ isKey touched => unhindered.lacks_of_ended serves ended isKey touched
  others := Crowd.beside_reach (probing_unseen backend)
    (Crowd.follows_fresh (probing backend) deployment)
    ⟨rfl, rfl, rfl, initial, initial, serves.here, serves.here,
      (Store.Alike.refl deployment.wall initial).on _⟩ moves

/-! ### A sample -/

/-- A backend in the process, and the counters of two checkers. -/
def sampleBackend : Backend × Deployment :=
  let (backend, deployment) := (Deployment.start 1700000000000).addLocal .standard (.ofSecs 60)
  (backend, deployment.addCounter.2.addCounter.2)

/-- Two probes go along with each other, of which the second one draws from a certain counter.  In between
somebody else puts something under a key of his own, some time passes, and a sweep takes place. -/
def sampleMoves (counter : Nat) : List (Crowd.Move Probe) :=
  [.start ⟨0, .background⟩, .start ⟨counter, .background⟩,
    .work 0 none, .work 1 none, .work 0 none, .work 1 none,
    .others (.perform 0 .background (.set (utf8 "k") (utf8 "v") .zero)),
    .work 0 none, .work 1 none,
    .advance (.ofMillis 900), .sweep 0,
    .work 0 none, .work 0 none, .work 1 none, .work 0 none, .work 1 none, .work 1 none]

theorem start_mem_sampleMoves {counter : Nat} {probe : Probe}
    (mem : .start probe ∈ sampleMoves counter) :
    probe = ⟨0, .background⟩ ∨ probe = ⟨counter, .background⟩ := by
  simpa [sampleMoves] using mem

/-- Nobody hinders the probes of the sample. -/
theorem unhindered_sampleMoves {counter : Nat} (known : counter < 2) :
    Unhindered sampleBackend.1 sampleBackend.2 (sampleMoves counter) where
  faultless := by simp [sampleMoves, Crowd.Move.Faultless]
  leaves := by
    intro move mem key isKey
    have ne : utf8 "k" ≠ key := by
      rintro rfl
      exact absurd isKey (by decide)
    cases move with
    | others call =>
        obtain rfl : call = .perform 0 .background (.set (utf8 "k") (utf8 "v") .zero) := by
          simpa [sampleMoves] using mem
        exact fun _ => decide_eq_false ne
    | _ => trivial
  counters := by
    intro probe mem
    have two : sampleBackend.2.tickets.size = 2 := rfl
    obtain rfl | rfl := start_mem_sampleMoves mem
    · exact two ▸ Nat.zero_lt_two
    · exact two ▸ known
  live := by
    intro probe mem front before
    obtain rfl | rfl := start_mem_sampleMoves mem <;> rfl
  prompt := by
    obtain rfl | rfl : counter = 0 ∨ counter = 1 := by omega
    · decide +kernel
    · decide +kernel
  early := by
    obtain rfl | rfl : counter = 0 ∨ counter = 1 := by omega
    · decide +kernel
    · decide +kernel

/-- Probes of clones of one checker both report a healthy backend.  Their keys are gone at the end, and the
other key is there. -/
theorem probes_apart_sampleMoves :
    let crowd := crowdOf sampleBackend.1 sampleBackend.2 (sampleMoves 0)
    (∀ worker ∈ crowd.workers, ∃ report, worker.rest = .done report ∧ report.isHealthy = true) ∧
      (∀ number < 2, crowd.deployment.Lacks sampleBackend.1.id (probeKey 1700000000000 number)) ∧
      ∃ store, crowd.deployment.store? sampleBackend.1.id = some store ∧
        (store.live? 1700000000900 (utf8 "k")).map Entry.value = some (utf8 "v") := by
  intro crowd
  have serves : sampleBackend.2.Serves sampleBackend.1 (.fresh .standard) :=
    ⟨by with_unfolding_all rfl, rfl, rfl⟩
  have apart := probes_apart serves (unhindered_sampleMoves (by decide : 0 < 2))
  obtain ⟨first, second, both⟩ : ∃ first second, crowd.workers =
      [⟨⟨0, .background⟩, .done first⟩, ⟨⟨0, .background⟩, .done second⟩] :=
    ⟨_, _, by with_unfolding_all rfl⟩
  have same : ∀ worker ∈ crowd.workers, worker.job.counter = 0 := by
    rw [both]
    exact List.forall_mem_cons.mpr ⟨rfl, List.forall_mem_singleton.mpr rfl⟩
  have healthy : ∀ worker ∈ crowd.workers,
      ∃ report, worker.rest = .done report ∧ report.isHealthy = true := by
    rw [both]
    refine List.forall_mem_cons.mpr ⟨⟨first, rfl, ?_⟩, List.forall_mem_singleton.mpr
      ⟨second, rfl, ?_⟩⟩
    · exact @Apart.clones _ _ _ _ apart 0 ⟨0, .background⟩ first same (congrArg (·[0]?) both)
    · exact @Apart.clones _ _ _ _ apart 1 ⟨0, .background⟩ second same (congrArg (·[1]?) both)
  refine ⟨healthy, fun number _ => apart.clean (fun worker mem => ?_) _
    (isProbeKey_probeKey _ number) (.inl rfl), ?_⟩
  · obtain ⟨report, ended, -⟩ := healthy worker mem
    exact ⟨report, ended⟩
  · obtain ⟨store, other, here, there, alike⟩ := apart.others.stores
    have alone : (sampleBackend.2.reach ((sampleMoves 0).filterMap Crowd.Move.incident?)).wall =
          1700000000900 ∧
        ((sampleBackend.2.reach ((sampleMoves 0).filterMap Crowd.Move.incident?)).store? 0).map
          (fun store => (store.live? 1700000000900 (utf8 "k")).map Entry.value) =
            some (some (utf8 "v")) := by decide +kernel
    obtain ⟨wall, shown⟩ := alone
    have live := alike.live (utf8 "k") (by decide)
    rw [wall] at live
    rw [show Deployment.store? _ 0 = some store from here] at shown
    refine ⟨other, there, ?_⟩
    rw [live]
    exact Option.some.inj shown

/-- **Two checkers** within a millisecond: both probes have the number 0, so both have the same key.  The
first one deletes the sentinel of the second one, which then reports that it was not found. -/
theorem crossed_within_a_millisecond :
    Unhindered sampleBackend.1 sampleBackend.2 (sampleMoves 1) ∧
      ∃ report, (crowdOf sampleBackend.1 sampleBackend.2 (sampleMoves 1)).workers[1]? =
          some ⟨⟨1, .background⟩, .done report⟩ ∧
        report.failure = some (.notFound (probeKey 1700000000000 0)) :=
  ⟨unhindered_sampleMoves (by decide), ⟨_, by with_unfolding_all rfl, rfl⟩⟩

end HealthChecker

end TimedCache
