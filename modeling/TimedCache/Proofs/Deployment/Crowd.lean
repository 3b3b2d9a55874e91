import TimedCache.Proofs.Deployment.Notes

/-!
# Many programs on one deployment

Several programs are under way on one deployment, and **any of them may go on at any moment**: by
asking its next question, and no further.  Between two questions other programs go on, others have
operations performed, time passes, sweeps take place, and contexts are cancelled.  An operation may
also fail on the way, for any reason, without being performed.

**The log.**  Every question of a program is noted with its answer and the moment.  What a program
has left to do is its tree walked down along its own notes (`Crowd.Follows`), so all that there is to
know about the course of one program is in that walk.  And it ends as soon as it was its turn often
enough (`Crowd.ended_of_turns`).

**One store.**  Programs that put something into a store do it by writing single keys
(`Call.Tame`), and nobody else puts anything into it.  Then every entry that was not there from the
beginning is what the last write of its key, as noted, has made of it, and the key was not cleared
since, as far as that is noted (`Store.AccountedBy`).

## Main Definitions

* `Crowd`, `Crowd.Move`, `Crowd.apply` — programs under way, and what can happen
* `Crowd.Sound` — what holds of a crowd at all times
-/

namespace TimedCache

/-! ### Crowds -/

/-- A program under way: what it was started for, and what is left of it. -/
structure Worker {J : Type} (Result : J → Type) where
  job : J
  rest : Program (Result job)

/-- A deployment with the programs that are under way on it, and the notes of all their questions,
first one first. -/
structure Crowd {J : Type} (Result : J → Type) where
  deployment : Deployment
  workers : List (Worker Result)
  log : List Note

/-- What can happen in a crowd: a program is started or goes on, others ask for something, time
passes, a backend is swept, and a token is cancelled. -/
inductive Crowd.Move (J : Type) where
  | start (job : J)
  /-- A program goes on.  If its next question is for an operation, that may fail on the way. -/
  | work (index : Nat) (fault : Option CacheError)
  | others (call : Call)
  | advance (duration : Duration)
  | sweep (backend : Nat)
  | cancel (token : Nat)

/-- The answer to a question whose operation, if it is for one, may fail on the way. -/
def Deployment.attempt (fault : Option CacheError) :
    (call : Call) → Deployment → call.Answer × Deployment
  | .perform backend context op, deployment =>
    match fault with
    | some failure => (.error failure, deployment)
    | none => deployment.perform backend context op
  | call, deployment => answer call deployment

/-- An attempt that does not fail on the way gets the answer of the deployment. -/
theorem Deployment.attempt_none (call : Call) (deployment : Deployment) :
    attempt none call deployment = answer call deployment := by
  cases call <;> rfl

namespace Crowd

variable {J : Type} {Result : J → Type}

/-- Nobody is at work yet. -/
def fresh (Result : J → Type) (deployment : Deployment) : Crowd Result := ⟨deployment, [], []⟩

/-- The crowd behind a move. -/
def apply (program : (job : J) → Program (Result job)) (crowd : Crowd Result) :
    Move J → Crowd Result
  | .start job => { crowd with workers := crowd.workers ++ [⟨job, program job⟩] }
  | .work index fault =>
    match crowd.workers[index]? with
    | some ⟨job, .ask call next⟩ =>
      let (answer, deployment) := Deployment.attempt fault call crowd.deployment
      ⟨deployment, crowd.workers.set index ⟨job, next answer⟩,
        crowd.log ++ [⟨index, crowd.deployment.wall, call, answer⟩]⟩
    | _ => crowd
  | .others call => { crowd with deployment := (Deployment.answer call crowd.deployment).2 }
  | .advance duration => { crowd with deployment := crowd.deployment.advance duration }
  | .sweep backend => { crowd with deployment := crowd.deployment.sweep backend }
  | .cancel token =>
    { crowd with
      deployment := { crowd.deployment with tokens := crowd.deployment.tokens.cancel token } }

/-- The crowd behind some moves. -/
def reach (program : (job : J) → Program (Result job)) : Crowd Result → List (Move J) → Crowd Result
  | crowd, [] => crowd
  | crowd, move :: moves => (crowd.apply program move).reach program moves

variable {program : (job : J) → Program (Result job)} {crowd : Crowd Result}

/-- Where nobody is at work, or is through, nothing happens; else a question is answered. -/
theorem apply_work (program : (job : J) → Program (Result job)) (crowd : Crowd Result) (index : Nat)
    (fault : Option CacheError) :
    crowd.apply program (.work index fault) = crowd ∨
      ∃ job call next, crowd.workers[index]? = some ⟨job, .ask call next⟩ ∧
        crowd.apply program (.work index fault) =
          ⟨(Deployment.attempt fault call crowd.deployment).2,
            crowd.workers.set index
              ⟨job, next (Deployment.attempt fault call crowd.deployment).1⟩,
            crowd.log ++ [⟨index, crowd.deployment.wall, call,
              (Deployment.attempt fault call crowd.deployment).1⟩]⟩ := by
  match there : crowd.workers[index]? with
  | none =>
      left
      simp only [apply, there]
  | some ⟨job, .done result⟩ =>
      left
      simp only [apply, there]
  | some ⟨job, .ask call next⟩ =>
      right
      exact ⟨job, call, next, rfl, by simp only [apply, there]⟩

/-- A move notes one question at most. -/
theorem log_apply (program : (job : J) → Program (Result job)) (crowd : Crowd Result)
    (move : Move J) :
    (crowd.apply program move).log = crowd.log ∨
      ∃ note, (crowd.apply program move).log = crowd.log ++ [note] := by
  cases move with
  | work index fault =>
      obtain same | ⟨job, call, next, -, stepped⟩ := apply_work program crowd index fault
      · rw [same]
        exact .inl rfl
      · rw [stepped]
        exact .inr ⟨_, rfl⟩
  | start job => exact .inl rfl
  | others call => exact .inl rfl
  | advance duration => exact .inl rfl
  | sweep backend => exact .inl rfl
  | cancel token => exact .inl rfl

/-- What a move notes is the next question of the program that goes on. -/
theorem work_of_noted {move : Move J} {note : Note}
    (noted : (crowd.apply program move).log = crowd.log ++ [note]) :
    ∃ index fault call, move = .work index fault ∧
      note = ⟨index, crowd.deployment.wall, call,
        (Deployment.attempt fault call crowd.deployment).1⟩ := by
  have silent : (crowd.apply program move).log ≠ crowd.log := by
    rw [noted]
    simp
  cases move with
  | work index fault =>
      obtain same | ⟨job, call, next, -, stepped⟩ := apply_work program crowd index fault
      · exact absurd (congrArg Crowd.log same) silent
      · rw [stepped] at noted
        exact ⟨index, fault, call, rfl,
          (List.singleton_inj.mp (List.append_cancel_left noted)).symm⟩
  | start job => exact absurd rfl silent
  | others call => exact absurd rfl silent
  | advance duration => exact absurd rfl silent
  | sweep backend => exact absurd rfl silent
  | cancel token => exact absurd rfl silent

/-! ### The course of a worker -/

/-- What every worker has left to do is its program, walked along its own notes. -/
structure Follows (program : (job : J) → Program (Result job)) (crowd : Crowd Result) : Prop where
  walks : ∀ {index worker}, crowd.workers[index]? = some worker →
    (program worker.job).Walks (notesOf index crowd.log) worker.rest
  known : ∀ note ∈ crowd.log, note.worker < crowd.workers.length

theorem follows_fresh (program : (job : J) → Program (Result job)) (deployment : Deployment) :
    (fresh Result deployment).Follows program where
  walks := fun there => nomatch there
  known := List.forall_mem_nil _

/-- A worker that has not started has no notes. -/
theorem Follows.notesOf_eq_nil (follows : crowd.Follows program) {index : Nat}
    (behind : crowd.workers.length ≤ index) : notesOf index crowd.log = [] := by
  refine List.filter_eq_nil_iff.mpr fun note mem => ?_
  have before := follows.known note mem
  simp only [decide_eq_true_eq]
  omega

/-- Whoever starts has noted nothing and has everything left to do. -/
theorem Follows.start (follows : crowd.Follows program) (job : J) :
    (crowd.apply program (.start job)).Follows program := by
  constructor
  · intro index worker there
    have there : (crowd.workers ++ [⟨job, program job⟩])[index]? = some worker := there
    rw [List.getElem?_append] at there
    split at there
    next => exact follows.walks there
    next behind =>
      have behind := Nat.le_of_not_lt behind
      rw [List.getElem?_singleton] at there
      split at there
      next =>
        cases there
        show (program job).Walks (notesOf index crowd.log) (program job)
        rw [follows.notesOf_eq_nil behind]
        exact .stay
      next => cases there
  · intro note mem
    have before := follows.known note mem
    show note.worker < (crowd.workers ++ [(⟨job, program job⟩ : Worker Result)]).length
    rw [List.length_append]
    omega

/-- Who works notes one thing more, and has one thing less left to do. -/
theorem Follows.work (follows : crowd.Follows program) (index : Nat) (fault : Option CacheError) :
    (crowd.apply program (.work index fault)).Follows program := by
  obtain same | ⟨job, call, next, there, stepped⟩ := apply_work program crowd index fault
  · rw [same]
    exact follows
  · obtain ⟨bound, -⟩ := List.getElem?_eq_some_iff.mp there
    rw [stepped]
    constructor
    · intro other worker at_
      dsimp only at at_ ⊢
      rw [notesOf_append]
      by_cases own : index = other
      · subst own
        rw [List.getElem?_set_self bound] at at_
        cases at_
        rw [notesOf_own ⟨index, crowd.deployment.wall, call, _⟩]
        exact (follows.walks there).snoc _
      · rw [List.getElem?_set_ne own] at at_
        rw [notesOf_of_ne own, List.append_nil]
        exact follows.walks at_
    · intro note mem
      dsimp only
      rw [List.length_set]
      obtain old | new := List.mem_append.mp mem
      · exact follows.known note old
      · rw [List.mem_singleton.mp new]
        exact bound

theorem Follows.apply (follows : crowd.Follows program) (move : Move J) :
    (crowd.apply program move).Follows program := by
  cases move with
  | start job => exact follows.start job
  | work index fault => exact follows.work index fault
  | others call => exact ⟨follows.walks, follows.known⟩
  | advance duration => exact ⟨follows.walks, follows.known⟩
  | sweep backend => exact ⟨follows.walks, follows.known⟩
  | cancel token => exact ⟨follows.walks, follows.known⟩

/-- **Every worker follows its program**, whatever happens in between. -/
theorem Follows.reach (follows : crowd.Follows program) (moves : List (Move J)) :
    (crowd.reach program moves).Follows program := by
  induction moves generalizing crowd with
  | nil => exact follows
  | cons move moves ih => exact ih (follows.apply move)

/-- Whoever is at work was started. -/
theorem started {P : J → Prop} {moves : List (Move J)}
    (atFirst : ∀ worker ∈ crowd.workers, P worker.job) (starts : ∀ job, .start job ∈ moves → P job) :
    ∀ worker ∈ (crowd.reach program moves).workers, P worker.job := by
  induction moves generalizing crowd with
  | nil => exact atFirst
  | cons move moves ih =>
      refine ih ?_ fun job mem => starts job (List.mem_cons_of_mem move mem)
      cases move with
      | start job =>
          exact List.forall_mem_append.mpr
            ⟨atFirst, List.forall_mem_singleton.mpr (starts job List.mem_cons_self)⟩
      | work index fault =>
          obtain same | ⟨job, call, next, there, stepped⟩ := apply_work program crowd index fault
          · rw [same]
            exact atFirst
          · rw [stepped]
            intro worker mem
            obtain old | rfl := List.mem_or_eq_of_mem_set mem
            · exact atFirst worker old
            · exact atFirst ⟨job, .ask call next⟩ (List.mem_of_getElem? there)
      | others _ | advance _ | sweep _ | cancel _ => exact atFirst

/-! ### The end of a worker -/

/-- Whether it is the turn of a certain worker. -/
def Move.isWork (index : Nat) : Move J → Bool
  | .work other _ => decide (other = index)
  | _ => false

/-- **What a move does to a worker**: it goes on if it is its turn and it has not ended, and else nothing
happens to it. -/
theorem worker_apply {index : Nat} {job : J} {rest : Program (Result job)}
    (there : crowd.workers[index]? = some ⟨job, rest⟩) (move : Move J) :
    ((crowd.apply program move).workers[index]? = some ⟨job, rest⟩ ∧
      (move.isWork index = true → ∃ result, rest = .done result)) ∨
    ∃ call next answer, rest = .ask call next ∧
      (crowd.apply program move).workers[index]? = some ⟨job, next answer⟩ := by
  obtain ⟨bound, -⟩ := List.getElem?_eq_some_iff.mp there
  cases move with
  | start other =>
      refine .inl ⟨?_, fun absurd => nomatch absurd⟩
      show (crowd.workers ++ [⟨other, program other⟩])[index]? = some ⟨job, rest⟩
      rw [List.getElem?_append_left bound]
      exact there
  | work other fault =>
      by_cases own : other = index
      · subst own
        cases rest with
        | done result =>
            refine .inl ⟨?_, fun _ => ⟨result, rfl⟩⟩
            simp only [apply, there]
        | ask call next =>
            refine .inr ⟨call, next, (Deployment.attempt fault call crowd.deployment).1, rfl, ?_⟩
            simp only [apply, there]
            exact List.getElem?_set_self bound
      · refine .inl ⟨?_, fun turn => absurd (of_decide_eq_true turn) own⟩
        obtain same | ⟨_, _, _, -, stepped⟩ := apply_work program crowd other fault
        · rw [same]
          exact there
        · rw [stepped]
          exact (List.getElem?_set_ne own).trans there
  | others _ | advance _ | sweep _ | cancel _ => exact .inl ⟨there, fun absurd => nomatch absurd⟩

/-- **A worker ends** when it was its turn as often as its program asks questions, whatever else happens
in between. -/
theorem ended_of_turns {index n : Nat} {job : J} {rest : Program (Result job)}
    (there : crowd.workers[index]? = some ⟨job, rest⟩) (brief : rest.AsksAtMost n)
    {moves : List (Move J)} (turns : n ≤ moves.countP (Move.isWork index)) :
    ∃ result, (crowd.reach program moves).workers[index]? = some ⟨job, .done result⟩ := by
  induction moves generalizing crowd rest n with
  | nil =>
      obtain rfl : n = 0 := Nat.le_zero.mp turns
      cases rest with
      | done result => exact ⟨result, there⟩
      | ask call next => exact brief.elim
  | cons move moves ih =>
      rw [List.countP_cons] at turns
      obtain ⟨stays, idle⟩ | ⟨call, next, answer, rfl, goesOn⟩ := worker_apply there move
      · by_cases turn : move.isWork index = true
        · obtain ⟨result, rfl⟩ := idle turn
          exact ih (n := 0) stays trivial (Nat.zero_le _)
        · rw [if_neg turn] at turns
          exact ih stays brief turns
      · cases n with
        | zero => exact brief.elim
        | succ n =>
            refine ih goesOn (brief answer) (Nat.le_of_succ_le_succ (Nat.le_trans turns ?_))
            split <;> omega

/-! ### The log of a run -/

theorem reach_append (program : (job : J) → Program (Result job)) (crowd : Crowd Result)
    (front back : List (Move J)) :
    crowd.reach program (front ++ back) = (crowd.reach program front).reach program back := by
  induction front generalizing crowd with
  | nil => rfl
  | cons move front ih => exact ih (crowd.apply program move)

/-- The log only grows. -/
theorem log_reach (program : (job : J) → Program (Result job)) (crowd : Crowd Result)
    (moves : List (Move J)) : ∃ notes, (crowd.reach program moves).log = crowd.log ++ notes := by
  induction moves generalizing crowd with
  | nil => exact ⟨[], (List.append_nil crowd.log).symm⟩
  | cons move moves ih =>
      obtain ⟨notes, log⟩ := ih (crowd.apply program move)
      obtain same | ⟨note, more⟩ := log_apply program crowd move
      · exact ⟨notes, by rw [reach, log, same]⟩
      · exact ⟨note :: notes, by rw [reach, log, more, List.append_assoc, List.singleton_append]⟩

/-- Nothing fails on the way in a move. -/
def Move.Faultless : Move J → Prop
  | .work _ fault => fault = none
  | _ => True

/-- What is noted in a move in which nothing fails is what the deployment answers. -/
theorem answer_of_noted {move : Move J} (faultless : move.Faultless) {note : Note}
    (noted : (crowd.apply program move).log = crowd.log ++ [note]) :
    note.answer = (Deployment.answer note.call crowd.deployment).1 := by
  obtain ⟨index, fault, call, rfl, rfl⟩ := work_of_noted noted
  obtain rfl : fault = none := faultless
  exact congrArg Prod.fst (Deployment.attempt_none call crowd.deployment)

/-- **Every answer that is noted in a run** in which nothing fails is that of the deployment at some
moment of the run. -/
theorem exists_answer_of_noted {moves : List (Move J)}
    (faultless : ∀ move ∈ moves, move.Faultless) {notes : List Note}
    (log : (crowd.reach program moves).log = crowd.log ++ notes) {note : Note}
    (mem : note ∈ notes) :
    ∃ front, front <+: moves ∧
      note.answer = (Deployment.answer note.call (crowd.reach program front).deployment).1 := by
  induction moves generalizing crowd notes with
  | nil =>
      rw [List.append_cancel_left (log.symm.trans (List.append_nil _).symm)] at mem
      cases mem
  | cons move moves ih =>
      rw [List.forall_mem_cons] at faultless
      have later : ∀ {notes}, (crowd.reach program (move :: moves)).log =
          (crowd.apply program move).log ++ notes → note ∈ notes →
          ∃ front, front <+: move :: moves ∧
            note.answer = (Deployment.answer note.call (crowd.reach program front).deployment).1 := by
        intro notes log mem
        obtain ⟨front, before, answered⟩ := ih faultless.2 log mem
        exact ⟨move :: front, List.cons_prefix_cons.mpr ⟨rfl, before⟩, answered⟩
      obtain same | ⟨first, more⟩ := log_apply program crowd move
      · exact later (by rw [log, same]) mem
      · obtain ⟨others, grown⟩ := log_reach program (crowd.apply program move) moves
        have split : notes = first :: others := by
          rw [← reach, log, more, List.append_assoc] at grown
          exact List.append_cancel_left grown
        rw [split, List.mem_cons] at mem
        obtain rfl | mem := mem
        · exact ⟨[], List.nil_prefix, answer_of_noted faultless.1 more⟩
        · exact later grown mem

end Crowd

/-! ### One store -/

/-- Whether a question spares the store of a backend, or writes a single key of it. -/
def Call.Tame (backend : Nat) (call : Call) : Prop :=
  call.Spares backend ∨ ∃ context key data ttl, call = .perform backend context (.set key data ttl)

/-- Whether others, where it is their move, spare the store of a backend. -/
def Crowd.Move.Spares {J : Type} (backend : Nat) : Crowd.Move J → Prop
  | .others call => call.Spares backend
  | _ => True

/-- What becomes of a store along some notes, of which at most one is of a write to it. -/
inductive Store.Noted (backend : Nat) (store : Store) : List Note → Store → Prop
  /-- Nothing is written, and what is noted to be cleared is cleared. -/
  | removes {notes : List Note} {after : Store}
      (unstored : ∀ note ∈ notes, note.stored? backend = none)
      (cleared : ∀ note ∈ notes, ∀ key, note.clears backend key = true →
        after.entries.find? (store.options.fullKey key) = none)
      (removes : store.OnlyRemoves after) :
      Noted backend store notes after
  /-- A single key is written. -/
  | writes {note : Note} {key data : Bytes} {ttl : Duration}
      (stored : note.stored? backend = some (key, data, ttl)) :
      Noted backend store [note] (store.write note.wall key data ttl)

namespace Deployment

variable {deployment : Deployment} {backend : Nat} {store : Store}

/-- An attempt at what spares the store only removes, and clears what is noted to be cleared. -/
theorem noted_attempt_of_spares (here : deployment.store? backend = some store) (worker : Nat)
    (fault : Option CacheError) {call : Call} (spares : call.Spares backend) :
    ∃ after, (attempt fault call deployment).2.store? backend = some after ∧
      store.Noted backend
        [⟨worker, deployment.wall, call, (attempt fault call deployment).1⟩] after := by
  have removes : ∃ after, (attempt fault call deployment).2.store? backend = some after ∧
      store.OnlyRemoves after := by
    unfold attempt
    split
    next =>
      split
      next => exact ⟨store, here, .refl store⟩
      next => exact onlyRemoves_answer here spares
    next => exact onlyRemoves_answer here spares
  obtain ⟨after, there, removes⟩ := removes
  refine ⟨after, there, .removes (List.forall_mem_singleton.mpr (stored?_of_spares spares))
    (List.forall_mem_singleton.mpr fun key noted => ?_) removes⟩
  obtain ⟨_, _, context, op, value, same, clears⟩ := Note.clears_iff.mp noted
  injection same with _ _ same answered
  subst same
  have answered := eq_of_heq answered
  cases fault with
  | some failure => cases answered
  | none =>
      obtain ⟨performed, there', -⟩ := store?_perform here context op
      cases there.symm.trans there'
      obtain ⟨failure, failed⟩ | gone := store.find?_perform_of_clears deployment.wall
        (deployment.standing context) clears
      · cases answered.symm.trans (performed.trans failed)
      · exact gone

/-- An attempt at a write fails and changes nothing, or it is done. -/
theorem noted_attempt_of_set (here : deployment.store? backend = some store) (worker : Nat)
    (fault : Option CacheError) (context : Context) (key data : Bytes) (ttl : Duration) :
    let call : Call := .perform backend context (.set key data ttl)
    ∃ after, (attempt fault call deployment).2.store? backend = some after ∧
      store.Noted backend
        [⟨worker, deployment.wall, call, (attempt fault call deployment).1⟩] after := by
  intro call
  have failed : ∀ failure, (attempt fault call deployment).1 = .error failure →
      store.Noted backend
        [⟨worker, deployment.wall, call, (attempt fault call deployment).1⟩] store := by
    intro failure same
    rw [same]
    exact .removes (List.forall_mem_singleton.mpr rfl)
      (List.forall_mem_singleton.mpr fun _ absurd => nomatch absurd) (.refl store)
  cases fault with
  | some failure => exact ⟨store, here, failed failure rfl⟩
  | none =>
      obtain ⟨answered, after, -⟩ := store?_perform here context (.set key data ttl)
      obtain ⟨failure, refused⟩ | done :=
        store.perform_set deployment.wall (deployment.standing context) key data ttl
      · rw [refused] at answered after
        exact ⟨store, after, failed failure answered⟩
      · rw [done] at answered after
        have ok : (attempt none call deployment).1 = .ok () := answered
        let note : Note := ⟨worker, deployment.wall, call, .ok ()⟩
        have stored : note.stored? backend = some (key, data, ttl) := if_pos rfl
        refine ⟨_, after, ?_⟩
        rw [ok]
        exact .writes stored

/-- **An attempt at a tame question**, and its note. -/
theorem noted_attempt (here : deployment.store? backend = some store) (worker : Nat)
    (fault : Option CacheError) {call : Call} (tame : call.Tame backend) :
    ∃ after, (attempt fault call deployment).2.store? backend = some after ∧
      store.Noted backend
        [⟨worker, deployment.wall, call, (attempt fault call deployment).1⟩] after := by
  obtain spares | ⟨context, key, data, ttl, rfl⟩ := tame
  · exact noted_attempt_of_spares here worker fault spares
  · exact noted_attempt_of_set here worker fault context key data ttl

end Deployment

namespace Crowd

variable {J : Type} {Result : J → Type} {program : (job : J) → Program (Result job)}
  {crowd : Crowd Result} {backend : Nat} {store : Store}

/-- All that is left to do is tame. -/
def Tame (backend : Nat) (crowd : Crowd Result) : Prop :=
  ∀ {index : Nat} {worker : Worker Result}, crowd.workers[index]? = some worker →
    worker.rest.Always (Call.Tame backend) fun _ => True

theorem Follows.tame (follows : crowd.Follows program)
    (tame : ∀ job, (program job).Always (Call.Tame backend) fun _ => True) : crowd.Tame backend :=
  fun there => ((tame _).walks (follows.walks there)).2

/-- **What a move does to the store** of a backend, where all programs are tame and all others spare
it. -/
theorem noted_apply (tame : crowd.Tame backend) {move : Move J} (spares : move.Spares backend)
    (here : crowd.deployment.store? backend = some store) :
    ∃ after notes, (crowd.apply program move).deployment.store? backend = some after ∧
      (crowd.apply program move).log = crowd.log ++ notes ∧ store.Noted backend notes after := by
  have silent : ∀ {after}, (crowd.apply program move).deployment.store? backend = some after →
      (crowd.apply program move).log = crowd.log → store.OnlyRemoves after →
      ∃ after notes, (crowd.apply program move).deployment.store? backend = some after ∧
        (crowd.apply program move).log = crowd.log ++ notes ∧ store.Noted backend notes after := by
    intro after there same removes
    refine ⟨after, [], there, ?_, .removes (List.forall_mem_nil _) (List.forall_mem_nil _) removes⟩
    rw [same, List.append_nil]
  cases move with
  | start job => exact silent here rfl (.refl store)
  | others call =>
      obtain ⟨after, there, removes⟩ := Deployment.onlyRemoves_answer here spares
      exact silent there rfl removes
  | advance duration =>
      obtain ⟨after, there, removes⟩ := Deployment.onlyRemoves_advanceTo here
        (crowd.deployment.elapsed + duration.nanos)
      exact silent there rfl removes
  | sweep other =>
      obtain ⟨after, there, removes⟩ := Deployment.onlyRemoves_sweep here other
      exact silent there rfl removes
  | cancel token => exact silent here rfl (.refl store)
  | work index fault =>
      obtain same | ⟨job, call, next, there, stepped⟩ := apply_work program crowd index fault
      · rw [same] at silent ⊢
        exact silent here rfl (.refl store)
      · rw [stepped]
        obtain ⟨after, there, noted⟩ := Deployment.noted_attempt here index fault (tame there).1
        exact ⟨after, _, there, rfl, noted⟩

end Crowd

/-! ### Accounts -/

/-- Every entry of a store was there from the beginning, and nothing is noted to have become of its
key, or it is what the last change of its key, as noted, has made of it. -/
structure Store.AccountedBy (initial : Store) (backend : Nat) (log : List Note) (store : Store) :
    Prop where
  options : store.options = initial.options
  entries : ∀ {key : Bytes} {entry : Entry},
    store.entries.find? (initial.options.fullKey key) = some entry →
      (lastChange? backend key log = none ∧
        initial.entries.find? (initial.options.fullKey key) = some entry) ∨
      ∃ wall data ttl, lastChange? backend key log = some (some (wall, data, ttl)) ∧
        entry = initial.newEntry wall data ttl

theorem Store.accountedBy_self (initial : Store) (backend : Nat) :
    initial.AccountedBy backend [] initial := ⟨rfl, fun found => .inl ⟨rfl, found⟩⟩

/-- Notes account for what becomes of a store along them. -/
theorem Store.AccountedBy.noted {initial store after : Store} {backend : Nat}
    {log notes : List Note} (accounted : initial.AccountedBy backend log store)
    (noted : store.Noted backend notes after) :
    initial.AccountedBy backend (log ++ notes) after := by
  cases noted with
  | removes unstored cleared removes =>
      refine ⟨removes.options.trans accounted.options, fun {key entry} found => ?_⟩
      have unchanged : ∀ note ∈ notes, note.change? backend key = none := by
        intro note mem
        refine Note.change?_eq_none ?_ ?_
        · rw [Note.storedAt?, unstored note mem, Option.bind_none]
        · cases clears : note.clears backend key with
          | false => rfl
          | true =>
              have gone := cleared note mem key clears
              rw [accounted.options, found] at gone
              cases gone
      rw [lastChange?, lastOf_append_of_none unchanged]
      exact accounted.entries (removes.sub found)
  | @writes note key data ttl stored =>
      refine ⟨accounted.options, fun {other entry} found => ?_⟩
      have found : (store.entries.insert (store.options.fullKey key)
          (store.newEntry note.wall data ttl)).find? (initial.options.fullKey other) =
            some entry := found
      rw [Table.find?_insert, accounted.options] at found
      by_cases same : other = key
      · subst same
        rw [if_pos rfl] at found
        cases found
        refine .inr ⟨note.wall, data, ttl, ?_, ?_⟩
        · exact lastOf_concat (Note.change?_of_storedAt?
            (Note.storedAt?_eq_some_iff.mpr ⟨rfl, stored⟩)) log
        · rw [newEntry, newEntry, accounted.options]
      · rw [if_neg fun eq => same (initial.options.fullKey_inj.mp eq)] at found
        have unchanged : ∀ note' ∈ [note], note'.change? backend other = none := by
          refine List.forall_mem_singleton.mpr (Note.change?_eq_none ?_ ?_)
          · rw [Note.storedAt?, stored, Option.bind_some, if_neg (Ne.symm same)]
          · exact Note.clears_of_stored? stored other
        rw [lastChange?, lastOf_append_of_none unchanged]
        exact accounted.entries found

/-- What was read from a backend had been there from the beginning, and nothing had become of its
key, or it is what the last change of the key had made of it. -/
def Store.Tells (initial : Store) (backend : Nat) (log : List Note) : Prop :=
  ∀ (older newer : List Note) (note : Note) (key data : Bytes), log = older ++ note :: newer →
    note.found? backend = some (key, data) →
      (lastChange? backend key older = none ∧ ∃ entry,
        initial.entries.find? (initial.options.fullKey key) = some entry ∧ entry.value = data) ∨
      ∃ wall ttl, lastChange? backend key older = some (some (wall, data, ttl))

theorem Store.Tells.concat {initial : Store} {backend : Nat} {log : List Note}
    (tells : initial.Tells backend log) {last : Note}
    (lastTells : ∀ {key data}, last.found? backend = some (key, data) →
      (lastChange? backend key log = none ∧ ∃ entry,
        initial.entries.find? (initial.options.fullKey key) = some entry ∧ entry.value = data) ∨
      ∃ wall ttl, lastChange? backend key log = some (some (wall, data, ttl))) :
    initial.Tells backend (log ++ [last]) := by
  intro older newer note key data split found
  obtain rfl | ⟨front, final, rfl⟩ := List.eq_nil_or_concat newer
  · obtain ⟨rfl, same⟩ := List.append_inj' split rfl
    rw [List.singleton_inj.mp same] at lastTells
    exact lastTells found
  · have split : log ++ [last] = (older ++ note :: front) ++ [final] := by
      rw [split, List.concat_eq_append, List.append_assoc]
      rfl
    exact tells older front note key data (List.append_inj' split rfl).1 found

namespace Crowd

variable {J : Type} {Result : J → Type} {program : (job : J) → Program (Result job)}
  {crowd : Crowd Result} {backend : Nat} {initial store : Store}

/-- What is read in a move is accounted for. -/
theorem tells_of_found {move : Move J} {note : Note} {key data : Bytes}
    (here : crowd.deployment.store? backend = some store)
    (accounted : initial.AccountedBy backend crowd.log store)
    (noted : (crowd.apply program move).log = crowd.log ++ [note])
    (found : note.found? backend = some (key, data)) :
    (lastChange? backend key crowd.log = none ∧ ∃ entry,
      initial.entries.find? (initial.options.fullKey key) = some entry ∧ entry.value = data) ∨
    ∃ wall ttl, lastChange? backend key crowd.log = some (some (wall, data, ttl)) := by
  obtain ⟨index, fault, call, -, same⟩ := work_of_noted noted
  obtain ⟨worker, wall, context, rfl⟩ := Note.found?_eq_some_iff.mp found
  injection same with _ _ same answered
  subst same
  have answered := eq_of_heq answered
  cases fault with
  | some failure => cases answered
  | none =>
      obtain ⟨read, -⟩ := Deployment.store?_perform here context (.get key)
      obtain ⟨entry, stored, -, rfl⟩ := Store.live_of_get (read.symm.trans answered.symm)
      rw [accounted.options] at stored
      obtain ⟨unchanged, first⟩ | ⟨wall, data, ttl, last, rfl⟩ := accounted.entries stored
      · exact .inl ⟨unchanged, entry, first, rfl⟩
      · exact .inr ⟨wall, ttl, last⟩

/-- **What holds of a crowd at all times**, if its programs are tame: the programs are followed, there
is a store and its entries are accounted for, and so is all that was read. -/
structure Sound (program : (job : J) → Program (Result job)) (backend : Nat) (initial : Store)
    (crowd : Crowd Result) : Prop where
  follows : crowd.Follows program
  store : ∃ store, crowd.deployment.store? backend = some store ∧
    initial.AccountedBy backend crowd.log store
  tells : initial.Tells backend crowd.log

theorem sound_fresh (program : (job : J) → Program (Result job)) {deployment : Deployment}
    (here : deployment.store? backend = some initial) :
    (fresh Result deployment).Sound program backend initial where
  follows := follows_fresh program deployment
  store := ⟨initial, here, initial.accountedBy_self backend⟩
  tells := fun _ _ _ _ _ split _ => nomatch List.append_eq_nil_iff.mp split.symm

variable (tame : ∀ job, (program job).Always (Call.Tame backend) fun _ => True)

include tame

theorem Sound.apply (sound : crowd.Sound program backend initial) {move : Move J}
    (spares : move.Spares backend) : (crowd.apply program move).Sound program backend initial := by
  obtain ⟨store, here, accounted⟩ := sound.store
  obtain ⟨after, notes, there, log, noted⟩ := noted_apply (sound.follows.tame tame) spares here
  refine ⟨sound.follows.apply move, ⟨after, there, ?_⟩, ?_⟩
  · rw [log]
    exact accounted.noted noted
  · obtain same | ⟨last, appended⟩ := log_apply program crowd move
    · rw [same]
      exact sound.tells
    · rw [appended]
      exact sound.tells.concat fun found => tells_of_found here accounted appended found

/-- **A crowd of tame programs stays sound**, whatever happens. -/
theorem Sound.reach (sound : crowd.Sound program backend initial) {moves : List (Move J)}
    (spares : ∀ move ∈ moves, move.Spares backend) :
    (crowd.reach program moves).Sound program backend initial := by
  induction moves generalizing crowd with
  | nil => exact sound
  | cons move moves ih =>
      rw [List.forall_mem_cons] at spares
      exact ih (sound.apply tame spares.1) spares.2

end Crowd

end TimedCache
