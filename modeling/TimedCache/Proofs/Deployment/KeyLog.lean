import TimedCache.Proofs.Deployment.Crowd
import TimedCache.Proofs.Deployment.Interlude

/-!
# What a log tells of a key

Several programs are under way on one deployment, and of a certain key each of their questions does one
of three things: it writes it, it deletes it, or it leaves it alone (`Call.Plain`).  Everybody else leaves
the key alone; other keys they may treat as they like.

Then **the log tells what is under the key** (`shownBy`): what was written last, unless it was deleted
since or has expired.  And every question about the key was answered accordingly, unless it came to
nothing because its context had ended (`Crowd.Records`).

The log is **in order** (`Crowd.InOrder`): the wall clock never goes back, and no number of a shared
counter is drawn twice.

Unlike `Crowd.Sound`, this asks nothing of what happens to other keys of the store, but knows a single
key only.

## Main Definitions

* `shownBy` — what a log says is under a key
* `Note.isCut` — an operation that came to nothing because its context had ended
* `Crowd.Records` — what holds of a key at all times
* `Crowd.InOrder` — the order of the log
-/

namespace TimedCache

/-! ### Notes that tell of a key -/

/-- A question that, as far as a key is concerned, leaves it alone, writes it or deletes it. -/
def Call.Plain (backend : Nat) (key : Bytes) (call : Call) : Prop :=
  call.Leaves backend key ∨
    (∃ context data ttl, call = .perform backend context (.set key data ttl)) ∨
      ∃ context, call = .perform backend context (.delete key)

/-- Whether an operation came to nothing because its context had ended. -/
def Note.isCut : Note → Bool
  | ⟨_, _, .perform _ _ _, .error .canceled⟩ => true
  | ⟨_, _, .perform _ _ _, .error .deadlineExceeded⟩ => true
  | _ => false

/-- What a log says is under a key, if it has not expired: what was last written, if it was not deleted
since, and before any of that what was there at the beginning. -/
def shownBy (initial : Store) (backend : Nat) (key : Bytes) (log : List Note) : Option Entry :=
  match lastChange? backend key log with
  | none => initial.entries.find? (initial.options.fullKey key)
  | some none => none
  | some (some (wall, data, ttl)) => some (initial.newEntry wall data ttl)

/-- Whether a question about a key was answered by what was under it. -/
def Note.Tells (backend : Nat) (key : Bytes) (shown : Option Entry) : Note → Prop
  | ⟨_, wall, .perform other _ (.get read), answer⟩ => other = backend → read = key →
    answer = ((shown.filter fun entry => !entry.isExpired wall).map Entry.value).elim
      (.error (.notFound key)) .ok
  | ⟨_, _, .perform other _ (.set written _ _), answer⟩ => other = backend → written = key →
    answer = .ok ()
  | ⟨_, _, .perform other _ (.delete deleted), answer⟩ => other = backend → deleted = key →
    answer = .ok ()
  | _ => True

section Notes

variable {initial : Store} {backend : Nat} {key : Bytes} {log : List Note} {note : Note}

/-- What does not change the key leaves what the log says. -/
theorem shownBy_concat_of_none (unchanged : note.change? backend key = none) :
    shownBy initial backend key (log ++ [note]) = shownBy initial backend key log := by
  rw [shownBy, lastChange?, lastOf_append_of_none (List.forall_mem_singleton.mpr unchanged)]
  rfl

theorem shownBy_concat_of_some {change : Option (Nat × Bytes × Duration)}
    (changed : note.change? backend key = some change) :
    shownBy initial backend key (log ++ [note]) =
      change.map fun stored => initial.newEntry stored.1 stored.2.1 stored.2.2 := by
  rw [shownBy, lastChange?, lastOf_concat changed]
  cases change <;> rfl

/-- An operation that clears a key may alter it. -/
theorem Operation.clears_of_spares {op : Operation} (spares : op.alters key = false) :
    op.clears key = false := by
  cases op with
  | delete other => exact spares
  | invalidate pattern => exact spares
  | flush => cases spares
  | _ => rfl

/-- A question that leaves a key alone changes nothing under it. -/
theorem change?_of_leaves (leaves : note.call.Leaves backend key) :
    note.change? backend key = none := by
  refine Note.change?_eq_none (Option.eq_none_iff_forall_ne_some.mpr ?_)
    (Bool.eq_false_iff.mpr fun clears => ?_)
  · rintro ⟨wall, data, ttl⟩ stored
    obtain ⟨-, stored⟩ := Note.storedAt?_eq_some_iff.mp stored
    unfold Note.stored? at stored
    split at stored
    next other context written data' ttl' =>
      split at stored
      next here =>
        cases stored
        exact absurd (leaves here) (by simp [Operation.alters])
      next => cases stored
    next => cases stored
  · obtain ⟨_, _, context, op, value, rfl, cleared⟩ := Note.clears_iff.mp clears
    cases cleared.symm.trans (Operation.clears_of_spares (leaves rfl))

/-- An operation that has failed changes nothing. -/
theorem change?_of_error (worker wall other : Nat) (context : Context) (op : Operation)
    (failure : CacheError) :
    Note.change? backend key ⟨worker, wall, .perform other context op, .error failure⟩ = none :=
  Note.change?_eq_none (by cases op <;> rfl) rfl

end Notes

/-! ### Nothing at all under a key -/

namespace Deployment

/-- Nothing is stored under a key, not even something that has expired. -/
def Lacks (deployment : Deployment) (backend : Nat) (key : Bytes) : Prop :=
  ∃ store, deployment.store? backend = some store ∧ store.Lacks key

variable {deployment : Deployment} {backend : Nat} {key : Bytes}

theorem Lacks.advanceTo (lacks : deployment.Lacks backend key) (later : Nat) :
    (deployment.advanceTo later).Lacks backend key := by
  obtain ⟨store, here, lacks⟩ := lacks
  obtain ⟨after, there, removes⟩ := onlyRemoves_advanceTo here later
  exact ⟨after, there, removes.lacks lacks⟩

theorem Lacks.sweep (lacks : deployment.Lacks backend key) (other : Nat) :
    (deployment.sweep other).Lacks backend key := by
  obtain ⟨store, here, lacks⟩ := lacks
  obtain ⟨after, there, removes⟩ := onlyRemoves_sweep here other
  exact ⟨after, there, removes.lacks lacks⟩

theorem Lacks.answer (lacks : deployment.Lacks backend key) {call : Call}
    (leaves : call.Leaves backend key) : (answer call deployment).2.Lacks backend key := by
  cases call with
  | perform other context op =>
      obtain ⟨store, here, lacks⟩ := lacks
      by_cases same : other = backend
      · subst same
        obtain ⟨-, there, -⟩ := store?_perform here context op
        exact ⟨_, there, lacks.perform _ _ (leaves rfl)⟩
      · exact ⟨store, (store?_perform_of_ne same context op).trans here, lacks⟩
  | wallClock | limitedContext _ | ticket _ => exact lacks
  | pause duration => exact lacks.advanceTo _

theorem Lacks.happen (lacks : deployment.Lacks backend key) {incident : Incident}
    (leaves : incident.Leaves backend key) : (deployment.happen incident).Lacks backend key := by
  cases incident with
  | ask call => exact lacks.answer leaves
  | advance duration => exact lacks.advanceTo _
  | sweep other => exact lacks.sweep other
  | cancel token => exact lacks

end Deployment

/-! ### What is under a key -/

/-- **What is under a key**, as a log says: it is shown, and nothing is left of what was deleted. -/
structure Deployment.Bears (deployment : Deployment) (backend : Backend) (key : Bytes)
    (shown : Option Entry) : Prop where
  shows : deployment.Shows backend key shown
  lacks : shown = none → deployment.Lacks backend.id key

namespace Deployment.Bears

variable {deployment : Deployment} {backend : Backend} {key : Bytes} {shown : Option Entry}

theorem happen (bears : deployment.Bears backend key shown) {incident : Incident}
    (leaves : incident.Leaves backend.id key) : (deployment.happen incident).Bears backend key shown :=
  ⟨bears.shows.happen leaves, fun nothing => (bears.lacks nothing).happen leaves⟩

theorem perform_refused (bears : deployment.Bears backend key shown) {context : Context}
    {failure : CacheError} (ended : (deployment.standing context).failure? = some failure)
    {op : Operation} (data : op.isData = true) :
    (deployment.perform backend.id context op).1 = .error failure ∧
      (deployment.perform backend.id context op).2.Bears backend key shown := by
  obtain ⟨answer, shows⟩ := bears.shows.perform_refused ended data
  refine ⟨answer, shows, fun nothing => ?_⟩
  obtain ⟨store, serves, -⟩ := bears.shows
  obtain ⟨same, here, lacks⟩ := bears.lacks nothing
  cases serves.here.symm.trans here
  exact ⟨store, (serves.perform_refused ended data).2.here, lacks⟩

end Deployment.Bears

/-! ### One question -/

/-- Work may go on under a context, or operations under it come to nothing. -/
theorem Deployment.live_or_cut (deployment : Deployment) (context : Context) :
    deployment.standing context = .live ∨ ∃ failure,
      (deployment.standing context).failure? = some failure ∧
        ∀ worker wall backend op,
          Note.isCut ⟨worker, wall, .perform backend context op, .error failure⟩ = true := by
  cases deployment.standing context with
  | live => exact .inl rfl
  | canceled | pastDeadline => exact .inr ⟨_, rfl, fun _ _ _ _ => rfl⟩

/-- The note of a question that is asked now. -/
def Deployment.noteOf (deployment : Deployment) (worker : Nat) (call : Call) : Note :=
  ⟨worker, deployment.wall, call, (answer call deployment).1⟩

/-- **A question is recorded**: the log, with its note, says what is under the key, and unless it came to
nothing it was answered by what was there before. -/
structure Recorded (initial : Store) (backend : Backend) (key : Bytes) (log : List Note)
    (deployment : Deployment) (worker : Nat) (call : Call) : Prop where
  bears : (Deployment.answer call deployment).2.Bears backend key
    (shownBy initial backend.id key (log ++ [deployment.noteOf worker call]))
  tells : (deployment.noteOf worker call).isCut = false →
    (deployment.noteOf worker call).Tells backend.id key (shownBy initial backend.id key log)

section Recorded

variable {initial : Store} {backend : Backend} {key : Bytes} {log : List Note}
  {deployment : Deployment} {worker : Nat} {context : Context}

/-- An operation under a context that has ended is recorded as such. -/
theorem recorded_of_ended
    (bears : deployment.Bears backend key (shownBy initial backend.id key log)) (worker : Nat)
    {failure : CacheError} (ended : (deployment.standing context).failure? = some failure)
    (cut : ∀ worker wall backend op,
      Note.isCut ⟨worker, wall, .perform backend context op, .error failure⟩ = true)
    {op : Operation} (data : op.isData = true) :
    Recorded initial backend key log deployment worker (.perform backend.id context op) := by
  obtain ⟨refused, after⟩ := bears.perform_refused ended data
  have noted : deployment.noteOf worker (.perform backend.id context op) =
      ⟨worker, deployment.wall, .perform backend.id context op, .error failure⟩ :=
    congrArg (Note.mk worker deployment.wall _) refused
  refine ⟨?_, fun uncut => ?_⟩
  · rw [noted, shownBy_concat_of_none (change?_of_error ..)]
    exact after
  · rw [noted, cut] at uncut
    cases uncut

/-- **A question that leaves the key alone** is recorded. -/
theorem recorded_of_leaves
    (bears : deployment.Bears backend key (shownBy initial backend.id key log)) (worker : Nat)
    {call : Call} (leaves : call.Leaves backend.id key) :
    Recorded initial backend key log deployment worker call := by
  have unchanged : (deployment.noteOf worker call).change? backend.id key = none :=
    change?_of_leaves leaves
  have after : (deployment.happen (.ask call)).Bears backend key
      (shownBy initial backend.id key (log ++ [deployment.noteOf worker call])) := by
    rw [shownBy_concat_of_none unchanged]
    exact bears.happen leaves
  refine ⟨after, fun uncut => ?_⟩
  cases call with
  | perform other context op =>
      cases op with
      | get read =>
          intro here same
          subst here same
          obtain live | ⟨failure, ended, cut⟩ := deployment.live_or_cut context
          · exact bears.shows.perform_get live
          · exact (recorded_of_ended bears worker ended cut rfl).tells uncut rfl rfl
      | set written data ttl =>
          intro here same
          exact absurd (leaves here) (by simp [Operation.alters, same])
      | delete deleted =>
          intro here same
          exact absurd (leaves here) (by simp [Operation.alters, same])
      | _ => trivial
  | _ => trivial

/-- **A write of the key** is recorded. -/
theorem recorded_set (options : initial.options = backend.options)
    (bears : deployment.Bears backend key (shownBy initial backend.id key log)) (worker : Nat)
    (context : Context) (data : Bytes) (ttl : Duration) :
    Recorded initial backend key log deployment worker
      (.perform backend.id context (.set key data ttl)) := by
  obtain live | ⟨failure, ended, cut⟩ := deployment.live_or_cut context
  · obtain ⟨store, serves, -⟩ := bears.shows
    obtain ⟨done, shows⟩ := serves.perform_set live key data ttl
    have noted : deployment.noteOf worker (.perform backend.id context (.set key data ttl)) =
        ⟨worker, deployment.wall, .perform backend.id context (.set key data ttl), .ok ()⟩ :=
      congrArg (Note.mk worker deployment.wall _) done
    refine ⟨?_, fun _ _ _ => done⟩
    rw [noted, shownBy_concat_of_some (Note.change?_written ..)]
    refine ⟨?_, fun nothing => nomatch nothing⟩
    rw [← options] at shows
    exact shows
  · exact recorded_of_ended bears worker ended cut rfl

/-- **A deletion of the key** is recorded. -/
theorem recorded_delete
    (bears : deployment.Bears backend key (shownBy initial backend.id key log)) (worker : Nat)
    (context : Context) :
    Recorded initial backend key log deployment worker
      (.perform backend.id context (.delete key)) := by
  obtain live | ⟨failure, ended, cut⟩ := deployment.live_or_cut context
  · obtain ⟨store, serves, -⟩ := bears.shows
    obtain ⟨done, shows⟩ := serves.perform_delete live key
    have noted : deployment.noteOf worker (.perform backend.id context (.delete key)) =
        ⟨worker, deployment.wall, .perform backend.id context (.delete key), .ok ()⟩ :=
      congrArg (Note.mk worker deployment.wall _) done
    refine ⟨?_, fun _ _ _ => done⟩
    rw [noted, shownBy_concat_of_some (Note.change?_deleted ..)]
    refine ⟨shows, fun _ => ?_⟩
    obtain ⟨answer, there, -⟩ := Deployment.store?_perform serves.here context (.delete key)
    refine ⟨_, there, ?_⟩
    have clears : Operation.clears key (.delete key) = true := decide_eq_true rfl
    have removes := store.perform_onlyRemoves deployment.wall (deployment.standing context)
      (show Operation.puts (.delete key) = false from rfl)
    obtain ⟨failure, failed⟩ | gone := store.find?_perform_of_clears deployment.wall
      (deployment.standing context) clears
    · cases done.symm.trans (answer.trans failed)
    · rw [Store.Lacks, removes.options]
      exact gone
  · exact recorded_of_ended bears worker ended cut rfl

/-- **A plain question** is recorded. -/
theorem recorded_of_plain (options : initial.options = backend.options)
    (bears : deployment.Bears backend key (shownBy initial backend.id key log)) (worker : Nat)
    {call : Call} (plain : call.Plain backend.id key) :
    Recorded initial backend key log deployment worker call := by
  obtain leaves | ⟨context, data, ttl, rfl⟩ | ⟨context, rfl⟩ := plain
  · exact recorded_of_leaves bears worker leaves
  · exact recorded_set options bears worker context data ttl
  · exact recorded_delete bears worker context

end Recorded

/-! ### The whole log -/

namespace Crowd

variable {J : Type} {Result : J → Type} {program : (job : J) → Program (Result job)}
  {crowd : Crowd Result} {backend : Backend} {initial : Store} {key : Bytes}

/-- Whether others, where it is their move, leave a key of a backend alone. -/
def Move.Leaves (backend : Nat) (key : Bytes) : Move J → Prop
  | .others call => call.Leaves backend key
  | _ => True

/-- What happens to the deployment in a move, if no program is concerned. -/
def Move.incident? : Move J → Option Incident
  | .start _ | .work _ _ => none
  | .others call => some (.ask call)
  | .advance duration => some (.advance duration)
  | .sweep backend => some (.sweep backend)
  | .cancel token => some (.cancel token)

/-- What is not a move of a program is an incident, or the start of a program. -/
theorem Move.silent_cases (program : (job : J) → Program (Result job)) (crowd : Crowd Result)
    (move : Move J) :
    (∃ index fault, move = .work index fault) ∨
      (crowd.apply program move).log = crowd.log ∧
        ((move.incident? = none ∧ (crowd.apply program move).deployment = crowd.deployment) ∨
          ∃ incident, move.incident? = some incident ∧
            (crowd.apply program move).deployment = crowd.deployment.happen incident ∧
            ∀ backend key, move.Leaves backend key → incident.Leaves backend key) := by
  cases move with
  | work index fault => exact .inl ⟨index, fault, rfl⟩
  | start job => exact .inr ⟨rfl, .inl ⟨rfl, rfl⟩⟩
  | others call => exact .inr ⟨rfl, .inr ⟨_, rfl, rfl, fun _ _ => id⟩⟩
  | advance _ | sweep _ | cancel _ => exact .inr ⟨rfl, .inr ⟨_, rfl, rfl, fun _ _ _ => trivial⟩⟩

/-- **What holds of a key at all times**: the log says what is under it, and tells so at each of its
notes. -/
structure Records (backend : Backend) (initial : Store) (key : Bytes) (crowd : Crowd Result) :
    Prop where
  bears : crowd.deployment.Bears backend key (shownBy initial backend.id key crowd.log)
  tells : EachNote (fun older note => note.isCut = false →
    note.Tells backend.id key (shownBy initial backend.id key older)) crowd.log

theorem records_fresh {deployment : Deployment} (serves : deployment.Serves backend initial)
    (key : Bytes) : (fresh Result deployment).Records backend initial key where
  bears := ⟨⟨initial, serves, rfl⟩, fun nothing => ⟨initial, serves.here, nothing⟩⟩
  tells := eachNote_nil

theorem Records.apply (options : initial.options = backend.options)
    (records : crowd.Records backend initial key) (follows : crowd.Follows program)
    (plain : ∀ job, (program job).Always (Call.Plain backend.id key) fun _ => True) {move : Move J}
    (faultless : move.Faultless) (leaves : move.Leaves backend.id key) :
    (crowd.apply program move).Records backend initial key := by
  obtain ⟨index, fault, rfl⟩ | ⟨log, silent⟩ := Move.silent_cases program crowd move
  · obtain same | ⟨job, call, next, there, stepped⟩ := apply_work program crowd index fault
    · rw [same]
      exact records
    · obtain rfl : fault = none := faultless
      have asks : call.Plain backend.id key := ((plain job).walks (follows.walks there)).2.1
      have recorded := recorded_of_plain options records.bears index asks
      rw [stepped, Deployment.attempt_none]
      exact ⟨recorded.bears, records.tells.concat recorded.tells⟩
  · refine ⟨?_, log ▸ records.tells⟩
    rw [log]
    obtain ⟨-, same⟩ | ⟨incident, -, happens, spared⟩ := silent
    · rw [same]
      exact records.bears
    · rw [happens]
      exact records.bears.happen (spared _ _ leaves)

/-- **A key stays recorded**, whatever happens to the others. -/
theorem Records.reach (options : initial.options = backend.options)
    (records : crowd.Records backend initial key) (follows : crowd.Follows program)
    (plain : ∀ job, (program job).Always (Call.Plain backend.id key) fun _ => True)
    {moves : List (Move J)} (faultless : ∀ move ∈ moves, move.Faultless)
    (leaves : ∀ move ∈ moves, move.Leaves backend.id key) :
    (crowd.reach program moves).Records backend initial key := by
  induction moves generalizing crowd with
  | nil => exact records
  | cons move moves ih =>
      rw [List.forall_mem_cons] at faultless leaves
      exact ih (records.apply options follows plain faultless.1 leaves.1) (follows.apply move)
        faultless.2 leaves.2

/-! ### The order of the log -/

/-- **Notes in order**: the deployment has a certain invariant, every note lies in its past, and any two
notes are in a certain order. -/
structure InOrder (inv : Deployment → Prop) (past : Note → Deployment → Prop)
    (before : Note → Note → Prop) (crowd : Crowd Result) : Prop where
  inv : inv crowd.deployment
  past : ∀ note ∈ crowd.log, past note crowd.deployment
  ordered : crowd.log.Pairwise before

/-- **The order is kept**, if every incident keeps the invariant and the past, and a question that is
asked comes after all notes of the past and then belongs to it. -/
theorem InOrder.reach {inv : Deployment → Prop} {past : Note → Deployment → Prop}
    {before : Note → Note → Prop} (order : crowd.InOrder inv past before)
    (keeps : ∀ {deployment} incident, inv deployment → inv (deployment.happen incident))
    (stays : ∀ {deployment note} incident, past note deployment →
      past note (deployment.happen incident))
    (comes : ∀ {deployment note} worker call, past note deployment →
      before note (deployment.noteOf worker call))
    (enters : ∀ {deployment} worker call, inv deployment →
      past (deployment.noteOf worker call) (deployment.happen (.ask call)))
    {moves : List (Move J)} (faultless : ∀ move ∈ moves, move.Faultless) :
    (crowd.reach program moves).InOrder inv past before := by
  induction moves generalizing crowd with
  | nil => exact order
  | cons move moves ih =>
      rw [List.forall_mem_cons] at faultless
      refine ih ?_ faultless.2
      obtain ⟨index, fault, rfl⟩ | ⟨log, silent⟩ := Move.silent_cases program crowd move
      · obtain same | ⟨job, call, next, -, stepped⟩ := apply_work program crowd index fault
        · rw [same]
          exact order
        · obtain rfl : fault = none := faultless.1
          rw [stepped, Deployment.attempt_none]
          refine ⟨keeps (.ask call) order.inv, ?_, ?_⟩
          · exact List.forall_mem_append.mpr ⟨fun note mem => stays (.ask call) (order.past note mem),
              List.forall_mem_singleton.mpr (enters index call order.inv)⟩
          · refine List.pairwise_append.mpr ⟨order.ordered, List.pairwise_singleton _ _, ?_⟩
            intro note mem other new
            rw [List.mem_singleton.mp new]
            exact comes index call (order.past note mem)
      · obtain ⟨-, same⟩ | ⟨incident, -, happens, -⟩ := silent
        · exact ⟨same ▸ order.inv, log ▸ same ▸ order.past, log ▸ order.ordered⟩
        · refine ⟨happens ▸ keeps incident order.inv, ?_, log ▸ order.ordered⟩
          rw [log, happens]
          exact fun note mem => stays incident (order.past note mem)

/-- **The clock does not go back** along a log. -/
theorem walls_ordered (deployment : Deployment) {moves : List (Move J)}
    (faultless : ∀ move ∈ moves, move.Faultless) :
    ((fresh Result deployment).reach program moves).log.Pairwise fun first second =>
      first.wall ≤ second.wall := by
  have start : (fresh Result deployment).InOrder (fun _ => True)
      (fun note reached => note.wall ≤ reached.wall) fun first second => first.wall ≤ second.wall :=
    ⟨trivial, List.forall_mem_nil _, List.Pairwise.nil⟩
  refine (start.reach (fun _ => id) (fun incident past => ?_) (fun _ _ past => past)
    (fun _ call _ => ?_) faultless).ordered
  · exact Nat.le_trans past (Deployment.wall_le_happen _ incident)
  · exact Deployment.wall_le_happen _ (.ask call)

end Crowd

/-- The number of a shared counter that a note says was drawn. -/
def Note.drawn? (counter : Nat) : Note → Option Nat
  | ⟨_, _, .ticket other, number⟩ => if other = counter then some number else none
  | _ => none

/-- What happens to the shared counters. -/
theorem Deployment.tickets_happen (deployment : Deployment) (incident : Incident) :
    (deployment.happen incident).tickets = deployment.tickets ∨
      ∃ counter, incident = .ask (.ticket counter) ∧
        (deployment.happen incident).tickets = deployment.tickets.modify counter (· + 1) := by
  cases incident with
  | ask call =>
      cases call with
      | perform backend context op =>
          left
          show (deployment.perform backend context op).2.tickets = deployment.tickets
          unfold Deployment.perform
          cases deployment.engines[backend]? <;> rfl
      | ticket counter => exact .inr ⟨counter, rfl, rfl⟩
      | wallClock | limitedContext _ | pause _ => exact .inl rfl
  | advance _ | sweep _ | cancel _ => exact .inl rfl

/-- How often a counter was drawn after one of them was drawn once more. -/
theorem drawn_modify (tickets : Array Nat) (other counter : Nat) :
    (tickets.modify other (· + 1)).getD counter 0 =
      if other = counter ∧ counter < tickets.size then tickets.getD counter 0 + 1
      else tickets.getD counter 0 := by
  rw [Array.getD_eq_getD_getElem?, Array.getD_eq_getD_getElem?, Array.getElem?_modify]
  by_cases same : other = counter
  · by_cases known : counter < tickets.size
    · rw [if_pos same, if_pos ⟨same, known⟩, Array.getElem?_eq_getElem known]
      rfl
    · rw [if_pos same, if_neg fun both => known both.2,
        Array.getElem?_eq_none (Nat.le_of_not_lt known)]
      rfl
  · rw [if_neg same, if_neg fun both => same both.1]

/-- No counter is set up, and none goes back. -/
theorem Deployment.drawn_le_happen (deployment : Deployment) (incident : Incident) (counter : Nat) :
    (deployment.happen incident).tickets.size = deployment.tickets.size ∧
      deployment.drawn counter ≤ (deployment.happen incident).drawn counter := by
  unfold Deployment.drawn
  obtain same | ⟨other, -, modified⟩ := deployment.tickets_happen incident
  · rw [same]
    exact ⟨rfl, Nat.le_refl _⟩
  · rw [modified, drawn_modify]
    refine ⟨Array.size_modify, ?_⟩
    split
    · exact Nat.le_succ _
    · exact Nat.le_refl _

/-- What is drawn from a counter now is the number of times that it was drawn before. -/
theorem Deployment.drawn?_noteOf {deployment : Deployment} {worker counter number : Nat} {call : Call}
    (drawn : (deployment.noteOf worker call).drawn? counter = some number) :
    call = .ticket counter ∧ number = deployment.drawn counter := by
  cases call with
  | ticket other =>
      unfold Deployment.noteOf Note.drawn? at drawn
      dsimp only at drawn
      split at drawn
      next same =>
        subst same
        exact ⟨rfl, (Option.some.inj drawn).symm⟩
      next => cases drawn
  | _ => cases drawn

namespace Crowd

variable {J : Type} {Result : J → Type} {program : (job : J) → Program (Result job)}

/-- **No number is drawn twice** from a counter. -/
theorem draws_ordered {deployment : Deployment} {counter : Nat}
    (known : counter < deployment.tickets.size) {moves : List (Move J)}
    (faultless : ∀ move ∈ moves, move.Faultless) :
    ((fresh Result deployment).reach program moves).log.Pairwise fun first second =>
      ∀ number other, first.drawn? counter = some number → second.drawn? counter = some other →
        number < other := by
  have start : (fresh Result deployment).InOrder (fun reached => counter < reached.tickets.size)
      (fun note reached => ∀ number, note.drawn? counter = some number →
        number < reached.drawn counter)
      fun first second => ∀ number other, first.drawn? counter = some number →
        second.drawn? counter = some other → number < other :=
    ⟨known, List.forall_mem_nil _, List.Pairwise.nil⟩
  refine (start.reach (fun {reached} incident known => ?_) (fun {reached _} incident past => ?_)
    (fun _ _ past => ?_) (fun {reached} worker call known => ?_) faultless).ordered
  · rw [(reached.drawn_le_happen incident counter).1]
    exact known
  · exact fun number drawn =>
      Nat.lt_of_lt_of_le (past number drawn) (reached.drawn_le_happen incident counter).2
  · intro number other drawn drawn'
    rw [(Deployment.drawn?_noteOf drawn').2]
    exact past number drawn
  · intro number drawn
    obtain ⟨rfl, rfl⟩ := Deployment.drawn?_noteOf drawn
    show reached.drawn counter < (reached.tickets.modify counter (· + 1)).getD counter 0
    rw [drawn_modify, if_pos ⟨rfl, known⟩]
    exact Nat.lt_succ_self _

/-- So a number tells who has drawn it. -/
theorem eq_of_drawn? {deployment : Deployment} {counter : Nat}
    (known : counter < deployment.tickets.size) {moves : List (Move J)}
    (faultless : ∀ move ∈ moves, move.Faultless) {first second : Note}
    (mem : first ∈ ((fresh Result deployment).reach program moves).log)
    (mem' : second ∈ ((fresh Result deployment).reach program moves).log) {number : Nat}
    (drawn : first.drawn? counter = some number) (drawn' : second.drawn? counter = some number) :
    first = second := by
  let apart (first second : Note) : Prop := ∀ number other,
    first.drawn? counter = some number → second.drawn? counter = some other → number ≠ other
  have : Std.Symm apart := ⟨fun _ _ differ number other drawn drawn' =>
    (differ other number drawn' drawn).symm⟩
  have pairs : ((fresh Result deployment).reach program moves).log.Pairwise apart :=
    (draws_ordered known faultless).imp fun before number other drawn drawn' =>
      Nat.ne_of_lt (before number other drawn drawn')
  by_contra differ
  exact pairs.forall mem mem' differ number number drawn drawn' rfl

end Crowd

end TimedCache
