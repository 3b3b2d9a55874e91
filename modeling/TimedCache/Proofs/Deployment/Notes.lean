import Mathlib.Data.List.Induction
import TimedCache.Proofs.Deployment.Backend

/-!
# Notes of what programs ask

When a program asks a question, a **note** of it says who asked, when, and what the answer was.  The
notes of several programs, one after another, are a log.

**What becomes of a key** can be read off a log: when something was last stored under it
(`lastStore?`), and whether it was cleared since (`lastChange?`).

**Walks.**  The notes of one program say how far it has come: what is left is its tree, walked down
along them (`Program.Walks`).  In whatever surroundings a program is run, its notes lead from it to its
result (`Program.walks_notes`).

## Main Definitions

* `Note` — a question that was answered
* `Note.stored?`, `Note.found?`, `Note.clears` — what a note says of a backend
* `lastStore?`, `lastChange?` — what has last become of a key
* `EachNote` — a condition on every note of a log
* `notesOf` — the notes of one worker
* `Program.Walks` — what is left of a program after some answers
* `Program.notes` — the notes of a run
-/

namespace TimedCache

/-! ### What a note says -/

/-- A question that was answered: who asked it, the wall clock then, and the answer. -/
structure Note where
  worker : Nat
  wall : Nat
  call : Call
  answer : call.Answer

/-- What a note says was written to a backend: the key, the value and its lifetime. -/
def Note.stored? (backend : Nat) : Note → Option (Bytes × Bytes × Duration)
  | ⟨_, _, .perform other _ (.set key data ttl), .ok ()⟩ =>
    if other = backend then some (key, data, ttl) else none
  | _ => none

/-- A note of a question that spares a store is not a note of a write to it. -/
theorem stored?_of_spares {backend : Nat} {note : Note} (spares : note.call.Spares backend) :
    note.stored? backend = none := by
  unfold Note.stored?
  split
  next other context key data ttl =>
    have puts : other = backend → (Operation.set key data ttl).puts = false := spares
    exact if_neg fun own => Bool.noConfusion (puts own)
  next => rfl

/-- What a note says was read from a backend: the key and the value. -/
def Note.found? (backend : Nat) : Note → Option (Bytes × Bytes)
  | ⟨_, _, .perform other _ (.get key), .ok data⟩ => if other = backend then some (key, data) else none
  | _ => none

theorem Note.found?_eq_some_iff {backend : Nat} {note : Note} {key data : Bytes} :
    note.found? backend = some (key, data) ↔ ∃ worker wall context,
      note = ⟨worker, wall, .perform backend context (.get key), .ok data⟩ := by
  constructor
  · intro found
    unfold found? at found
    split at found
    next worker wall other context key' data' =>
      split at found
      next own =>
        cases found
        subst own
        exact ⟨worker, wall, context, rfl⟩
      next => cases found
    next => cases found
  · rintro ⟨worker, wall, context, rfl⟩
    exact if_pos rfl

/-- Whether a note says that a key was cleared in a backend. -/
def Note.clears (backend : Nat) (key : Bytes) : Note → Bool
  | ⟨_, _, .perform other _ op, .ok _⟩ => decide (other = backend) && op.clears key
  | _ => false

theorem Note.clears_iff {backend : Nat} {key : Bytes} {note : Note} :
    note.clears backend key = true ↔ ∃ worker wall context op value,
      note = ⟨worker, wall, .perform backend context op, .ok value⟩ ∧ op.clears key = true := by
  constructor
  · intro clears
    unfold Note.clears at clears
    split at clears
    next worker wall other context op value =>
      rw [Bool.and_eq_true, decide_eq_true_eq] at clears
      obtain ⟨rfl, clears⟩ := clears
      exact ⟨worker, wall, context, op, value, rfl, clears⟩
    next => cases clears
  · rintro ⟨worker, wall, context, op, value, rfl, clears⟩
    rw [Note.clears, clears, decide_eq_true rfl]
    rfl

/-- When and what a note says was written under a key. -/
def Note.storedAt? (backend : Nat) (key : Bytes) (note : Note) : Option (Nat × Bytes × Duration) :=
  (note.stored? backend).bind fun stored =>
    if stored.1 = key then some (note.wall, stored.2) else none

/-- What a note says has become of a key: something was written, or the key was cleared. -/
def Note.change? (backend : Nat) (key : Bytes) (note : Note) :
    Option (Option (Nat × Bytes × Duration)) :=
  match note.storedAt? backend key with
  | some stored => some (some stored)
  | none => if note.clears backend key then some none else none

/-! ### What has last become of a key -/

/-- What the last note tells that tells anything. -/
def lastOf {β : Type} (tells? : Note → Option β) (log : List Note) : Option β :=
  (log.filterMap tells?).getLast?

/-- When and what was last written under a key. -/
def lastStore? (backend : Nat) (key : Bytes) (log : List Note) : Option (Nat × Bytes × Duration) :=
  lastOf (Note.storedAt? backend key) log

/-- What has last become of a key. -/
def lastChange? (backend : Nat) (key : Bytes) (log : List Note) :
    Option (Option (Nat × Bytes × Duration)) :=
  lastOf (Note.change? backend key) log

section Last

variable {β : Type} {tells? : Note → Option β} {log more : List Note} {note : Note} {told : β}

theorem lastOf_append (log more : List Note) :
    lastOf tells? (log ++ more) = (lastOf tells? more).or (lastOf tells? log) := by
  rw [lastOf, List.filterMap_append, List.getLast?_append]
  rfl

theorem lastOf_append_of_none (silent : ∀ note ∈ more, tells? note = none) :
    lastOf tells? (log ++ more) = lastOf tells? log := by
  rw [lastOf_append, lastOf, List.filterMap_eq_nil_iff.mpr silent]
  rfl

theorem lastOf_concat (tells : tells? note = some told) (log : List Note) :
    lastOf tells? (log ++ [note]) = some told := by
  rw [lastOf, List.filterMap_append, List.filterMap_cons_some tells, List.filterMap_nil,
    List.getLast?_concat]

/-- The note that told last. -/
theorem exists_note_of_lastOf (last : lastOf tells? log = some told) :
    ∃ older note newer, log = older ++ note :: newer ∧ tells? note = some told ∧
      ∀ later ∈ newer, tells? later = none := by
  induction log using List.reverseRecOn with
  | nil => cases last
  | append_singleton log final ih =>
      cases tells : tells? final with
      | some other =>
          rw [lastOf_concat tells] at last
          cases last
          exact ⟨log, final, [], rfl, tells, List.forall_mem_nil _⟩
      | none =>
          have silent : ∀ later ∈ [final], tells? later = none :=
            List.forall_mem_singleton.mpr tells
          rw [lastOf_append_of_none silent] at last
          obtain ⟨older, note, newer, rfl, told, quiet⟩ := ih last
          refine ⟨older, note, newer ++ [final], ?_, told, ?_⟩
          · rw [List.append_assoc]
            rfl
          · exact List.forall_mem_append.mpr ⟨quiet, silent⟩

theorem lastOf_ne_none (mem : note ∈ log) (tells : tells? note = some told) :
    lastOf tells? log ≠ none := by
  intro nothing
  have silent := List.filterMap_eq_nil_iff.mp (List.getLast?_eq_none_iff.mp nothing) note mem
  rw [tells] at silent
  cases silent

end Last

theorem Note.storedAt?_eq_some_iff {backend : Nat} {key data : Bytes} {note : Note} {wall : Nat}
    {ttl : Duration} :
    note.storedAt? backend key = some (wall, data, ttl) ↔
      note.wall = wall ∧ note.stored? backend = some (key, data, ttl) := by
  unfold storedAt?
  cases note.stored? backend with
  | none => simp
  | some stored =>
      obtain ⟨other, content⟩ := stored
      simp only [Option.bind_some, Option.some.injEq, Prod.mk.injEq]
      by_cases same : other = key
      · rw [if_pos same, Option.some.injEq, Prod.mk.injEq]
        simp only [same, true_and]
      · rw [if_neg same]
        simp [same]

theorem Note.change?_of_storedAt? {backend : Nat} {key : Bytes} {note : Note}
    {stored : Nat × Bytes × Duration} (at_ : note.storedAt? backend key = some stored) :
    note.change? backend key = some (some stored) := by
  rw [change?, at_]

theorem Note.storedAt?_of_change? {backend : Nat} {key : Bytes} {note : Note}
    {change : Option (Nat × Bytes × Duration)} (changed : note.change? backend key = some change) :
    note.storedAt? backend key = change := by
  unfold change? at changed
  cases stored : note.storedAt? backend key with
  | some other =>
      rw [stored] at changed
      exact Option.some.inj changed
  | none =>
      rw [stored] at changed
      dsimp only at changed
      split at changed
      next => exact Option.some.inj changed
      next => cases changed

theorem Note.change?_of_clears {backend : Nat} {key : Bytes} {note : Note}
    (unstored : note.stored? backend = none) (clears : note.clears backend key = true) :
    note.change? backend key = some none := by
  rw [change?, storedAt?, unstored, Option.bind_none, if_pos clears]

theorem Note.change?_written (worker wall backend : Nat) (context : Context) (key data : Bytes)
    (ttl : Duration) :
    Note.change? backend key ⟨worker, wall, .perform backend context (.set key data ttl), .ok ()⟩ =
      some (some (wall, data, ttl)) :=
  change?_of_storedAt? (storedAt?_eq_some_iff.mpr ⟨rfl, if_pos rfl⟩)

theorem Note.change?_deleted (worker wall backend : Nat) (context : Context) (key : Bytes) :
    Note.change? backend key ⟨worker, wall, .perform backend context (.delete key), .ok ()⟩ =
      some none :=
  change?_of_clears rfl (clears_iff.mpr ⟨_, _, _, _, _, rfl, decide_eq_true rfl⟩)

theorem Note.change?_eq_none {backend : Nat} {key : Bytes} {note : Note}
    (unstored : note.storedAt? backend key = none) (keeps : note.clears backend key = false) :
    note.change? backend key = none := by
  rw [change?, unstored, keeps]
  rfl

/-- A note of a write clears nothing. -/
theorem Note.clears_of_stored? {backend : Nat} {note : Note} {stored : Bytes × Bytes × Duration}
    (stores : note.stored? backend = some stored) (key : Bytes) :
    note.clears backend key = false := by
  unfold Note.stored? at stores
  split at stores
  next => exact Bool.and_false _
  next => cases stores

/-- Where the last change of a key is a store, it is the last store. -/
theorem lastStore?_of_lastChange? {backend : Nat} {key : Bytes} {log : List Note}
    {stored : Nat × Bytes × Duration} (last : lastChange? backend key log = some (some stored)) :
    lastStore? backend key log = some stored := by
  obtain ⟨older, note, newer, rfl, changed, quiet⟩ := exists_note_of_lastOf last
  have silent : ∀ later ∈ newer, later.storedAt? backend key = none := by
    intro later mem
    have unchanged := quiet later mem
    unfold Note.change? at unchanged
    cases at_ : later.storedAt? backend key with
    | none => rfl
    | some other =>
        rw [at_] at unchanged
        cases unchanged
  rw [List.append_cons, lastStore?, lastOf_append_of_none silent]
  exact lastOf_concat (Note.storedAt?_of_change? changed) older

/-! ### Every note -/

/-- A condition on every note of a log, by what is before it. -/
def EachNote (fits : List Note → Note → Prop) (log : List Note) : Prop :=
  ∀ older note newer, log = older ++ note :: newer → fits older note

section EachNote

variable {fits : List Note → Note → Prop} {log : List Note} {note : Note}

theorem eachNote_nil : EachNote fits [] :=
  fun _ _ _ split => nomatch List.append_eq_nil_iff.mp split.symm

theorem EachNote.concat (each : EachNote fits log) (last : fits log note) :
    EachNote fits (log ++ [note]) := by
  intro older earlier newer split
  obtain rfl | ⟨front, final, rfl⟩ := List.eq_nil_or_concat newer
  · obtain ⟨rfl, same⟩ := List.append_inj' split rfl
    rw [← List.singleton_inj.mp same]
    exact last
  · have split : log ++ [note] = (older ++ earlier :: front) ++ [final] := by
      rw [split, List.concat_eq_append, List.append_assoc]
      rfl
    exact each older earlier front (List.append_inj' split rfl).1

end EachNote

/-! ### One worker -/

/-- The notes of one worker. -/
def notesOf (worker : Nat) (log : List Note) : List Note :=
  log.filter fun note => note.worker = worker

theorem notesOf_append (worker : Nat) (log more : List Note) :
    notesOf worker (log ++ more) = notesOf worker log ++ notesOf worker more :=
  List.filter_append log more

theorem notesOf_cons_own (note : Note) (log : List Note) :
    notesOf note.worker (note :: log) = note :: notesOf note.worker log :=
  List.filter_cons_of_pos (decide_eq_true rfl)

theorem notesOf_own (note : Note) : notesOf note.worker [note] = [note] :=
  notesOf_cons_own note []

theorem notesOf_of_ne {worker : Nat} {note : Note} (ne : note.worker ≠ worker) :
    notesOf worker [note] = [] :=
  List.filter_cons_of_neg (by simp [ne])

/-- Where the notes of one worker are divided, the log is. -/
theorem exists_split_of_notesOf {worker : Nat} {log front back : List Note} {note : Note}
    (own : notesOf worker log = front ++ note :: back) :
    ∃ older newer, log = older ++ note :: newer ∧ notesOf worker older = front ∧
      notesOf worker newer = back := by
  obtain ⟨first, rest, rfl, before, after⟩ := List.filter_eq_append_iff.mp own
  obtain ⟨middle, newer, rfl, others, -, behind⟩ := List.filter_eq_cons_iff.mp after
  refine ⟨first ++ middle, newer, by rw [List.append_assoc], ?_, behind⟩
  rw [notesOf_append, notesOf, before, notesOf, List.filter_eq_nil_iff.mpr others, List.append_nil]

/-- Between two notes of one worker, one right after the other, there are only notes of others. -/
theorem exists_splits_of_notesOf {worker : Nat} {log front back : List Note} {first second : Note}
    (own : notesOf worker log = front ++ first :: second :: back) :
    ∃ older middle newer, log = older ++ first :: (middle ++ second :: newer) ∧
      notesOf worker older = front ∧ notesOf worker middle = [] ∧ notesOf worker newer = back := by
  obtain ⟨older, more, rfl, before, after⟩ := exists_split_of_notesOf own
  obtain ⟨middle, newer, rfl, between, behind⟩ := @exists_split_of_notesOf worker more [] back second after
  exact ⟨older, middle, newer, rfl, before, between, behind⟩

theorem mem_notesOf {worker : Nat} {log : List Note} {note : Note} :
    note ∈ notesOf worker log ↔ note ∈ log ∧ note.worker = worker := by
  rw [notesOf, List.mem_filter, decide_eq_true_eq]

/-! ### Walks -/

namespace Program

variable {α β : Type}

/-- What is left of a program after some of its questions were answered. -/
inductive Walks : Program α → List Note → Program α → Prop
  | stay {program : Program α} : Walks program [] program
  | step {worker wall : Nat} {call : Call} {answer : call.Answer}
      {next : call.Answer → Program α} {notes : List Note} {rest : Program α}
      (walks : Walks (next answer) notes rest) :
      Walks (.ask call next) (⟨worker, wall, call, answer⟩ :: notes) rest

variable {program rest : Program α} {notes : List Note}

/-- One more answer. -/
theorem Walks.snoc {worker wall : Nat} {call : Call} {next : call.Answer → Program α}
    (walks : Walks program notes (.ask call next)) (answer : call.Answer) :
    Walks program (notes ++ [⟨worker, wall, call, answer⟩]) (next answer) := by
  generalize left : Program.ask call next = rest at walks
  induction walks with
  | stay =>
      subst left
      exact .step .stay
  | step walks ih => exact .step (ih left)

/-- A program that goes on with its result is walked to a place before the result, or beyond it. -/
theorem walks_bind {f : α → Program β} {rest : Program β}
    (walks : Walks (program.bind f) notes rest) :
    (∃ call next, Walks program notes (.ask call next) ∧ rest = (Program.ask call next).bind f) ∨
      ∃ front back a, notes = front ++ back ∧ Walks program front (.done a) ∧
        Walks (f a) back rest := by
  induction program generalizing notes with
  | done a => exact .inr ⟨[], notes, a, rfl, .stay, walks⟩
  | ask call next ih =>
      rw [bind_ask] at walks
      cases walks with
      | stay => exact .inl ⟨call, next, .stay, rfl⟩
      | @step worker wall _ answer _ notes _ walks =>
          obtain ⟨call', next', before, rfl⟩ | ⟨front, back, a, rfl, first, second⟩ := ih answer walks
          · exact .inl ⟨call', next', .step before, rfl⟩
          · exact .inr ⟨⟨worker, wall, call, answer⟩ :: front, back, a, rfl, .step first, second⟩

/-- A program that goes on with its result has come to its end by way of the result. -/
theorem walks_bind_done {f : α → Program β} {b : β}
    (walks : Walks (program.bind f) notes (.done b)) :
    ∃ front back a, notes = front ++ back ∧ Walks program front (.done a) ∧
      Walks (f a) back (.done b) := by
  obtain ⟨call, next, -, unfinished⟩ | through := walks_bind walks
  · cases unfinished
  · exact through

/-- A program that makes something of its result has asked what it asks without that. -/
theorem walks_map_done {f : α → β} {b : β}
    (walks : Walks (program.bind fun a => .done (f a)) notes (.done b)) :
    ∃ a, Walks program notes (.done a) ∧ b = f a := by
  obtain ⟨front, back, a, rfl, first, last⟩ := walks_bind_done walks
  cases last
  rw [List.append_nil]
  exact ⟨a, first, rfl⟩

/-- A program that always asks certain questions has asked such questions, and goes on so. -/
theorem Always.walks {asks : Call → Prop} {gives : α → Prop} (always : program.Always asks gives)
    (walks : Walks program notes rest) :
    (∀ note ∈ notes, asks note.call) ∧ rest.Always asks gives := by
  induction walks with
  | stay => exact ⟨List.forall_mem_nil _, always⟩
  | step walks ih =>
      obtain ⟨asked, after⟩ := ih (always.2 _)
      exact ⟨List.forall_mem_cons.mpr ⟨always.1, asked⟩, after⟩

end Program

/-! ### Notes of a run -/

namespace Program

variable {α β σ : Type} {worker : Nat} {clock : σ → Nat}
  {answer : (call : Call) → σ → call.Answer × σ}

/-- The notes that a worker takes while it runs a program to its end.  Of the surroundings nothing is
known but what they make of a question, and the time. -/
def notes (worker : Nat) (clock : σ → Nat) (answer : (call : Call) → σ → call.Answer × σ) :
    Program α → σ → List Note
  | done _, _ => []
  | ask call next, s =>
    let (reply, after) := answer call s
    ⟨worker, clock s, call, reply⟩ :: notes worker clock answer (next reply) after

/-- **A run walks a program to its end.** -/
theorem walks_notes (program : Program α) (s : σ) :
    program.Walks (program.notes worker clock answer s) (.done (program.run answer s).1) := by
  induction program generalizing s with
  | done a => exact .stay
  | ask call next ih => exact .step (ih _ _)

/-- The notes of a program that goes on with its result are those of both parts. -/
theorem notes_bind (program : Program α) (f : α → Program β) (s : σ) :
    (program.bind f).notes worker clock answer s =
      program.notes worker clock answer s ++
        (f (program.run answer s).1).notes worker clock answer (program.run answer s).2 := by
  induction program generalizing s with
  | done a => rfl
  | ask call next ih => exact congrArg (_ :: ·) (ih _ _)

end Program

end TimedCache
