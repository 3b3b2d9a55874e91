import TimedCache.Proofs.Deployment.Crowd
import TimedCache.ReadThrough

/-!
# Reading through a cache, many at a time

Any number of calls read through one backend in the process, for any keys.  A call looks its key up;
if that gives no value it computes one, and then stores it.  Between these steps, and in the midst of
a computation, other calls go on, others delete, flush, invalidate or close, time passes, sweeps take
place and contexts are cancelled; and any look-up and any store may fail for any reason.

**The course of a call** (`ReadThrough.Course`) is read off its notes: it computes if and only if its
look-up gave no value, it never computes twice, it fails with nothing but the failure of its own
computation, and how its store ends does not matter to it.

**Where values come from.**  What is looked up is what was last stored under the key, and what is
stored under a key is what the call that stores it has computed for that key before.  So every value
that is returned was computed for its key by some call (`ReadThrough.Transparent`).
-/

namespace TimedCache.ReadThrough

/-- A call: under which context, for which key, and how to compute the value.  Computing it puts
nothing into the backend. -/
structure Request (cache : ReadThrough) where
  context : Context
  key : Bytes
  compute : Compute (Bytes × Duration)
  spares : compute.Always (Call.Spares cache.backend.id) fun _ => True

variable {cache : ReadThrough}

/-- What is done for a call. -/
def Request.program (request : Request cache) : Program (Except CacheError Bytes) :=
  cache.getOrSet request.context request.key request.compute

namespace Request

variable (request : Request cache)

/-- The look-up of a call. -/
abbrev lookup : Call := .perform cache.backend.id request.context (.get request.key)

/-- The store of a call. -/
abbrev keep (data : Bytes) (ttl : Duration) : Call :=
  .perform cache.backend.id request.context (.set request.key data ttl)

/-- What is done once the look-up was answered. -/
def afterLookup : Except CacheError Bytes → Program (Except CacheError Bytes)
  | .ok data => .done (.ok data)
  | .error _ => request.compute.bind fun
    | .error reason => .done (.error (.computeFailed reason))
    | .ok (data, ttl) => .ask (request.keep data ttl) fun _ => .done (.ok data)

theorem program_eq : request.program = .ask request.lookup request.afterLookup := by
  show Program.ask request.lookup _ = _
  congr 1
  funext answer
  cases answer <;> rfl

end Request

/-- The notes of a call, and what is left of it. -/
inductive Course (request : Request cache) :
    List Note → Program (Except CacheError Bytes) → Prop
  | begun : Course request [] request.program
  /-- The look-up gave a value: it is returned, and nothing is computed. -/
  | found {worker wall : Nat} {data : Bytes} :
      Course request [⟨worker, wall, request.lookup, .ok data⟩] (.done (.ok data))
  /-- The look-up gave no value: computing is under way. -/
  | computing {worker wall : Nat} {failure : CacheError} {notes : List Note} {call : Call}
      {next : call.Answer → Program (Except Bytes (Bytes × Duration))}
      {rest : call.Answer → Program (Except CacheError Bytes)}
      (walks : request.compute.Walks notes (.ask call next)) :
      Course request (⟨worker, wall, request.lookup, .error failure⟩ :: notes) (.ask call rest)
  /-- Computing has failed: so has the call. -/
  | failed {worker wall : Nat} {failure : CacheError} {notes : List Note} {reason : Bytes}
      (walks : request.compute.Walks notes (.done (.error reason))) :
      Course request (⟨worker, wall, request.lookup, .error failure⟩ :: notes)
        (.done (.error (.computeFailed reason)))
  /-- A value was computed: it is about to be stored. -/
  | computed {worker wall : Nat} {failure : CacheError} {notes : List Note} {data : Bytes}
      {ttl : Duration} (walks : request.compute.Walks notes (.done (.ok (data, ttl)))) :
      Course request (⟨worker, wall, request.lookup, .error failure⟩ :: notes)
        (.ask (request.keep data ttl) fun _ => .done (.ok data))
  /-- The store was answered, one way or the other: the value is returned. -/
  | kept {worker worker' wall wall' : Nat} {failure : CacheError} {notes : List Note}
      {data : Bytes} {ttl : Duration} {answer : Except CacheError Unit}
      (walks : request.compute.Walks notes (.done (.ok (data, ttl)))) :
      Course request
        (⟨worker, wall, request.lookup, .error failure⟩ ::
          (notes ++ [⟨worker', wall', request.keep data ttl, answer⟩]))
        (.done (.ok data))

/-- **The course of a call** is all that its program can do. -/
theorem course_of_walks {request : Request cache} {notes : List Note}
    {rest : Program (Except CacheError Bytes)} (walks : request.program.Walks notes rest) :
    Course request notes rest := by
  rw [request.program_eq] at walks
  cases walks with
  | stay =>
      rw [← request.program_eq]
      exact .begun
  | @step worker wall _ answer _ notes _ walks =>
      cases answer with
      | ok data =>
          cases walks
          exact .found
      | error failure =>
          obtain ⟨call, next, before, rfl⟩ | ⟨front, back, outcome, rfl, computed, after⟩ :=
            Program.walks_bind walks
          · exact .computing before
          · cases outcome with
            | error reason =>
                cases after
                rw [List.append_nil]
                exact .failed computed
            | ok outcome =>
                obtain ⟨data, ttl⟩ := outcome
                cases after with
                | stay =>
                    rw [List.append_nil]
                    exact .computed computed
                | step after =>
                    cases after
                    exact .kept computed

namespace Request

variable (request : Request cache)

/-- The call has looked its key up in vain, and then has computed this value. -/
def Computed (notes : List Note) (data : Bytes) (ttl : Duration) : Prop :=
  ∃ worker wall failure computing later,
    notes = (⟨worker, wall, request.lookup, .error failure⟩ :: (computing ++ later) : List Note) ∧
      request.compute.Walks computing (.done (.ok (data, ttl)))

/-- The call has looked its key up in vain, and then has failed to compute a value. -/
def Failed (notes : List Note) (reason : Bytes) : Prop :=
  ∃ worker wall failure computing,
    notes = (⟨worker, wall, request.lookup, .error failure⟩ :: computing : List Note) ∧
      request.compute.Walks computing (.done (.error reason))

/-- A call puts nothing into the backend but its own key. -/
theorem program_tame :
    request.program.Always (Call.Tame cache.backend.id) fun _ => True := by
  have spares : ∀ {op : Operation}, op.puts = false →
      Call.Tame cache.backend.id (.perform cache.backend.id request.context op) :=
    fun reads => .inl fun _ => reads
  rw [request.program_eq]
  refine ⟨spares rfl, fun answer => ?_⟩
  cases answer with
  | ok data => trivial
  | error failure =>
      have computes : request.compute.Always (Call.Tame cache.backend.id) fun _ => True :=
        request.spares.mono Or.inl
      refine computes.bind fun outcome _ => ?_
      cases outcome with
      | error reason => trivial
      | ok outcome => exact ⟨.inr ⟨request.context, _, _, _, rfl⟩, fun _ => trivial⟩

variable {request} {notes computing : List Note}
  {rest : Program (Except Bytes (Bytes × Duration))}

/-- What is noted of a computation is no write. -/
theorem stored?_of_walks (walks : request.compute.Walks computing rest) :
    ∀ note ∈ computing, note.stored? cache.backend.id = none := fun note mem =>
  stored?_of_spares ((request.spares.walks walks).1 note mem)

end Request

namespace Course

variable {request : Request cache} {notes : List Note} {rest : Program (Except CacheError Bytes)}

/-- What a call stores it stores under its key, and has computed it before. -/
theorem computed_of_stored (course : Course request notes rest) {front back : List Note}
    {note : Note} (split : notes = front ++ note :: back) {key data : Bytes} {ttl : Duration}
    (stored : note.stored? cache.backend.id = some (key, data, ttl)) :
    request.key = key ∧ request.Computed front data ttl := by
  have never : ∀ {notes back : List Note},
      (∀ note ∈ notes, note.stored? cache.backend.id = none) → notes ≠ front ++ note :: back := by
    rintro notes back unstored rfl
    rw [unstored note (List.mem_append_right front List.mem_cons_self)] at stored
    cases stored
  have quiet : ∀ {worker wall : Nat} {failure : CacheError} {notes : List Note}
      {left : Program (Except Bytes (Bytes × Duration))}, request.compute.Walks notes left →
      ∀ note ∈ (⟨worker, wall, request.lookup, .error failure⟩ :: notes : List Note),
        note.stored? cache.backend.id = none :=
    fun walks => List.forall_mem_cons.mpr ⟨rfl, Request.stored?_of_walks walks⟩
  cases course with
  | begun => exact absurd split (never (List.forall_mem_nil _))
  | found => exact absurd split (never (List.forall_mem_singleton.mpr rfl))
  | computing walks => exact absurd split (never (quiet walks))
  | failed walks => exact absurd split (never (quiet walks))
  | computed walks => exact absurd split (never (quiet walks))
  | @kept worker worker' wall wall' failure computing data' ttl' answer walks =>
      rw [← List.cons_append] at split
      obtain rfl | ⟨between, last, rfl⟩ := List.eq_nil_or_concat back
      · obtain ⟨rfl, same⟩ := List.append_inj' split rfl
        rw [← List.singleton_inj.mp same] at stored
        cases answer with
        | error failure => cases stored
        | ok done =>
            rw [Note.stored?, if_pos rfl] at stored
            cases stored
            exact ⟨rfl, worker, wall, failure, computing, [], by rw [List.append_nil], walks⟩
      · -- The store is the last note, so any other one is of the look-up or of the computation.
        rw [List.concat_eq_append, ← List.cons_append, ← List.append_assoc] at split
        exact absurd (List.append_inj' split rfl).1 (never (quiet walks))

/-- A call that has failed has the failure of its computation, and has stored nothing. -/
theorem of_failed (course : Course request notes rest) {failure : CacheError}
    (left : rest = .done (.error failure)) :
    (∃ reason, failure = .computeFailed reason ∧ request.Failed notes reason) ∧
      ∀ note ∈ notes, note.stored? cache.backend.id = none := by
  cases course with
  | begun =>
      rw [request.program_eq] at left
      cases left
  | found => cases left
  | computing walks => cases left
  | failed walks =>
      cases left
      exact ⟨⟨_, rfl, _, _, _, _, rfl, walks⟩,
        List.forall_mem_cons.mpr ⟨rfl, Request.stored?_of_walks walks⟩⟩
  | computed walks => cases left
  | kept walks => cases left

/-- A call that has returned a value has found it, or has computed it. -/
theorem of_returned (course : Course request notes rest) {data : Bytes}
    (left : rest = .done (.ok data)) :
    (∃ worker wall, notes = [⟨worker, wall, request.lookup, .ok data⟩]) ∨
      ∃ ttl, request.Computed notes data ttl := by
  cases course with
  | begun =>
      rw [request.program_eq] at left
      cases left
  | found =>
      cases left
      exact .inl ⟨_, _, rfl⟩
  | computing walks => cases left
  | failed walks => cases left
  | computed walks => cases left
  | kept walks =>
      cases left
      exact .inr ⟨_, _, _, _, _, _, rfl, walks⟩

end Course

/-! ### Many calls -/

/-- A call under way. -/
abbrev Reader (cache : ReadThrough) := Worker fun _ : Request cache => Except CacheError Bytes

/-- Calls under way on a deployment. -/
abbrev Readers (cache : ReadThrough) := Crowd fun _ : Request cache => Except CacheError Bytes

/-- **Reading through is transparent** to all calls. -/
structure Transparent (cache : ReadThrough) (options : Options) (readers : Readers cache) :
    Prop where
  /-- Every call takes its course. -/
  course : ∀ {index : Nat} {reader : Reader cache}, readers.workers[index]? = some reader →
    Course reader.job (notesOf index readers.log) reader.rest
  /-- A call fails only with the failure of its own computation, and then it has stored nothing. -/
  failed : ∀ {index : Nat} {reader : Reader cache} {failure : CacheError},
    readers.workers[index]? = some reader → reader.rest = .done (.error failure) →
      (∃ reason, failure = .computeFailed reason ∧
        reader.job.Failed (notesOf index readers.log) reason) ∧
      ∀ note ∈ notesOf index readers.log, note.stored? cache.backend.id = none
  /-- A value that a call has returned it has computed, or another call had computed it for the same
  key before this one looked it up. -/
  returned : ∀ {index : Nat} {reader : Reader cache} {data : Bytes},
    readers.workers[index]? = some reader → reader.rest = .done (.ok data) →
      (∃ ttl, reader.job.Computed (notesOf index readers.log) data ttl) ∨
        ∃ older newer other ttl, ∃ helper : Reader cache, readers.log = older ++ newer ∧
          notesOf index older = [] ∧ readers.workers[other]? = some helper ∧
          helper.job.key = reader.job.key ∧ helper.job.Computed (notesOf other older) data ttl
  /-- What is stored was computed for its key before, by the call that stores it. -/
  stored : ∀ {older newer : List Note} {note : Note} {key data : Bytes} {ttl : Duration},
    readers.log = older ++ note :: newer →
    note.stored? cache.backend.id = some (key, data, ttl) →
      ∃ reader : Reader cache, readers.workers[note.worker]? = some reader ∧
        reader.job.key = key ∧ reader.job.Computed (notesOf note.worker older) data ttl
  /-- The value and the lifetime of every live entry are those of the last store of its key. -/
  entries : ∃ store, readers.deployment.store? cache.backend.id = some store ∧
    store.options = options ∧ ∀ {key : Bytes} {entry : Entry},
      store.live? readers.deployment.wall key = some entry →
        ∃ wall data ttl, lastStore? cache.backend.id key readers.log = some (wall, data, ttl) ∧
          entry = store.newEntry wall data ttl

variable {options : Options} {readers : Readers cache}

theorem stored_of_follows (follows : readers.Follows Request.program) {older newer : List Note}
    {note : Note} {key data : Bytes} {ttl : Duration} (split : readers.log = older ++ note :: newer)
    (stored : note.stored? cache.backend.id = some (key, data, ttl)) :
    ∃ reader : Reader cache, readers.workers[note.worker]? = some reader ∧
      reader.job.key = key ∧ reader.job.Computed (notesOf note.worker older) data ttl := by
  have mem : note ∈ readers.log := by
    rw [split]
    exact List.mem_append_right older List.mem_cons_self
  have bound := follows.known note mem
  have own : notesOf note.worker readers.log =
      notesOf note.worker older ++ note :: notesOf note.worker newer := by
    rw [split, notesOf_append, List.append_cancel_left_eq]
    exact List.filter_cons_of_pos (decide_eq_true rfl)
  have course := course_of_walks (follows.walks (List.getElem?_eq_getElem bound))
  exact ⟨_, List.getElem?_eq_getElem bound, course.computed_of_stored own stored⟩

/-- What was looked up had been computed before, for the same key. -/
theorem computed_of_looked_up
    (sound : readers.Sound Request.program cache.backend.id (.fresh options)) {index wall : Nat}
    {context : Context} {key data : Bytes} {later : List Note}
    (looked : notesOf index readers.log =
      (⟨index, wall, .perform cache.backend.id context (.get key), .ok data⟩ :: later : List Note)) :
    ∃ older newer other ttl, ∃ helper : Reader cache, readers.log = older ++ newer ∧
      notesOf index older = [] ∧ readers.workers[other]? = some helper ∧ helper.job.key = key ∧
      helper.job.Computed (notesOf other older) data ttl := by
  obtain ⟨older, newer, split, before, -, -⟩ := List.filter_eq_cons_iff.mp looked
  obtain ⟨-, entry, found, -⟩ | ⟨storedWall, ttl, last⟩ :=
    sound.tells older newer _ key data split (if_pos rfl)
  · cases found
  · obtain ⟨oldest, note, between, rfl, changed, -⟩ := exists_note_of_lastOf last
    obtain ⟨-, stored⟩ := Note.storedAt?_eq_some_iff.mp (Note.storedAt?_of_change? changed)
    rw [List.append_assoc, List.cons_append] at split
    obtain ⟨helper, there, same, computed⟩ := stored_of_follows sound.follows split stored
    refine ⟨oldest, _, note.worker, ttl, helper, split, ?_, there, same, computed⟩
    exact List.filter_eq_nil_iff.mpr fun other mem => before other (List.mem_append_left _ mem)

theorem transparent_of_sound
    (sound : readers.Sound Request.program cache.backend.id (.fresh options)) :
    Transparent cache options readers where
  course := fun there => course_of_walks (sound.follows.walks there)
  failed := fun there left => (course_of_walks (sound.follows.walks there)).of_failed left
  returned := by
    intro index worker data there left
    obtain ⟨asker, wall, looked⟩ | computed :=
      (course_of_walks (sound.follows.walks there)).of_returned left
    · have mem := List.mem_singleton_self (⟨asker, wall, worker.job.lookup, .ok data⟩ : Note)
      rw [← looked] at mem
      obtain rfl : asker = index := of_decide_eq_true (List.mem_filter.mp mem).2
      exact .inr (computed_of_looked_up sound looked)
    · exact .inl computed
  stored := stored_of_follows sound.follows
  entries := by
    obtain ⟨store, here, accounted⟩ := sound.store
    refine ⟨store, here, accounted.options, fun {key entry} live => ?_⟩
    have found := (Option.filter_eq_some_iff.mp live).1
    rw [accounted.options] at found
    obtain ⟨-, first⟩ | ⟨wall, data, ttl, last, rfl⟩ := accounted.entries found
    · cases first
    · refine ⟨wall, data, ttl, lastStore?_of_lastChange? last, ?_⟩
      rw [Store.newEntry, Store.newEntry, accounted.options]

/-- **Any number of concurrent calls** on a backend that was empty at first: reading through is
transparent to them, whatever happens in between and whichever look-ups and stores fail. -/
theorem getOrSet_transparent (cache : ReadThrough) {deployment : Deployment} {options : Options}
    (here : deployment.store? cache.backend.id = some (.fresh options))
    {moves : List (Crowd.Move (Request cache))}
    (spares : ∀ move ∈ moves, move.Spares cache.backend.id) :
    Transparent cache options
      ((Crowd.fresh (fun _ : Request cache => Except CacheError Bytes) deployment).reach
        Request.program moves) :=
  transparent_of_sound ((Crowd.sound_fresh Request.program here).reach Request.program_tame spares)

/-- A backend in the process, and its deployment. -/
def sampleBackend : Backend × Deployment := (Deployment.start 0).addLocal .standard (.ofSecs 30)

def sampleCache : ReadThrough := .of sampleBackend.1

/-- A call whose value depends on when it is computed. -/
def sampleRequest : Request sampleCache where
  context := ⟨none, none⟩
  key := utf8 "k"
  compute := .ask .wallClock fun wall =>
    .done (.ok (if wall = 0 then utf8 "early" else utf8 "late", .zero))
  spares := ⟨trivial, fun _ => trivial⟩

/-- Two calls compute, one of them because its look-up fails, and only the other can store; a third
call finds what that one has stored. -/
def sampleMoves : List (Crowd.Move (Request sampleCache)) :=
  [.start sampleRequest, .start sampleRequest, .work 0 none, .work 1 (some .closed), .work 0 none,
    .advance (.ofMillis 1), .work 1 none, .work 0 none, .work 1 (some .closed), .start sampleRequest,
    .work 2 none]

theorem getOrSet_transparent_sampleMoves :
    let readers := (Crowd.fresh (fun _ : Request sampleCache => Except CacheError Bytes)
      sampleBackend.2).reach Request.program sampleMoves
    sampleBackend.2.store? sampleCache.backend.id = some (.fresh .standard) ∧
      (∀ move ∈ sampleMoves, move.Spares sampleCache.backend.id) ∧
      readers.workers.map Worker.rest =
        [.done (.ok (utf8 "early")), .done (.ok (utf8 "late")), .done (.ok (utf8 "early"))] ∧
      Transparent sampleCache .standard readers := by
  have here : sampleBackend.2.store? sampleCache.backend.id = some (.fresh .standard) := rfl
  have spares : ∀ move ∈ sampleMoves, move.Spares sampleCache.backend.id := by
    simp [sampleMoves, Crowd.Move.Spares]
  exact ⟨here, spares, by with_unfolding_all rfl, getOrSet_transparent sampleCache here spares⟩

end TimedCache.ReadThrough
