import TimedCache.Proofs.Deployment.Notes
import TimedCache.Proofs.Store.Frame

/-!
# What may happen in between

Between two requests of one client much may happen in a deployment: others have their questions
answered, time passes, sweepers make their passes, and tokens are cancelled (`Incident`).

**What every incident keeps** is kept all the time (`reach_keeps`).

**What a backend shows.**  An open store in the process *shows* under a key what was put there, as
long as it has not expired (`Deployment.Shows`).  It goes on to do so whatever happens, unless an
operation on it may alter the key (`Shows.reach`); and what it is asked for meanwhile is answered by what
it shows (`Shows.perform_get`, `Shows.perform_has`).

**A program amid incidents** asks its questions one after another, and before each of them anything may
happen (`Deployment.runAmid`).

## Main Definitions

* `Incident`, `Deployment.happen`, `Deployment.reach` — what happens, and what it leads to
* `Deployment.Serves` — an open store behind a backend
* `Deployment.Shows` — what is to be seen under a key
* `Incident.Leaves` — nothing that may alter a key
* `Passage`, `Deployment.runAmid` — a program amid incidents, from its first question to its end
-/

namespace TimedCache

/-! ### Incidents -/

/-- What can happen in a deployment. -/
inductive Incident where
  /-- Somebody's question is answered. -/
  | ask (call : Call)
  /-- Time passes. -/
  | advance (duration : Duration)
  /-- A backend is swept out of turn. -/
  | sweep (backend : Nat)
  /-- A token is cancelled. -/
  | cancel (token : Nat)

namespace Deployment

/-- The deployment behind an incident. -/
def happen (deployment : Deployment) : Incident → Deployment
  | .ask call => (answer call deployment).2
  | .advance duration => deployment.advance duration
  | .sweep backend => deployment.sweep backend
  | .cancel token => { deployment with tokens := deployment.tokens.cancel token }

/-- The deployment behind several incidents. -/
def reach (deployment : Deployment) (incidents : List Incident) : Deployment :=
  incidents.foldl happen deployment

/-- **What every incident keeps** is kept all the time. -/
theorem reach_keeps {P : Deployment → Prop} {incidents : List Incident}
    (step : ∀ incident ∈ incidents, ∀ {reached}, P reached → P (reached.happen incident))
    {deployment : Deployment} (start : P deployment) : P (deployment.reach incidents) := by
  induction incidents generalizing deployment with
  | nil => exact start
  | cons incident incidents ih =>
      obtain ⟨first, others⟩ := List.forall_mem_cons.mp step
      exact ih others (first start)

/-- The wall clock does not go back. -/
theorem wall_le_happen (deployment : Deployment) (incident : Incident) :
    deployment.wall ≤ (deployment.happen incident).wall := by
  cases incident with
  | ask call =>
      cases call with
      | perform backend context op =>
          exact Nat.le_of_eq (deployment.wall_perform backend context op).symm
      | pause duration => exact deployment.wall_le_advanceTo _
      | wallClock | limitedContext _ | ticket _ => exact Nat.le_refl _
  | advance duration => exact deployment.wall_le_advanceTo _
  | sweep _ | cancel _ => exact Nat.le_refl _

theorem wall_le_reach (deployment : Deployment) (incidents : List Incident) :
    deployment.wall ≤ (deployment.reach incidents).wall :=
  reach_keeps (P := fun reached => deployment.wall ≤ reached.wall)
    (fun incident _ {reached} le => Nat.le_trans le (reached.wall_le_happen incident))
    (Nat.le_refl deployment.wall)

/-! ### What a backend shows -/

/-- An open store in the process stands behind a backend. -/
structure Serves (deployment : Deployment) (backend : Backend) (store : Store) : Prop where
  here : deployment.store? backend.id = some store
  isOpen : store.isOpen = true
  options : store.options = backend.options

/-- A backend shows something under a key, or nothing: what was put there, as long as it has not
expired. -/
def Shows (deployment : Deployment) (backend : Backend) (key : Bytes) (shown : Option Entry) :
    Prop :=
  ∃ store, deployment.Serves backend store ∧
    store.live? deployment.wall key =
      shown.filter fun entry => !entry.isExpired deployment.wall

/-- A backend that was just made serves from an empty store. -/
theorem serves_addLocal (deployment : Deployment) (options : Options) (interval : Duration) :
    (deployment.addLocal options interval).2.Serves (deployment.addLocal options interval).1
      (.fresh options) where
  here := store?_eq_some_iff.mpr ⟨.start deployment.elapsed interval, Array.getElem?_push_size⟩
  isOpen := rfl
  options := rfl

end Deployment

/-! ### Incidents that leave a key -/

/-- Whether a question leaves a key of a backend alone. -/
def Call.Leaves (backend : Nat) (key : Bytes) : Call → Prop
  | .perform other _ op => other = backend → op.alters key = false
  | _ => True

/-- Whether an incident leaves a key of a backend alone. -/
def Incident.Leaves (backend : Nat) (key : Bytes) : Incident → Prop
  | .ask call => call.Leaves backend key
  | _ => True

namespace Deployment

variable {deployment : Deployment} {backend : Backend} {store : Store} {key : Bytes}
  {shown : Option Entry}

theorem Shows.advanceTo (shows : deployment.Shows backend key shown) (later : Nat) :
    (deployment.advanceTo later).Shows backend key shown := by
  obtain ⟨store, serves, live⟩ := shows
  obtain ⟨after, there, alike⟩ := alike_advanceTo serves.here later
  refine ⟨after, ⟨there, alike.isOpen.trans serves.isOpen, alike.options.trans serves.options⟩, ?_⟩
  have le := deployment.wall_le_advanceTo later
  rw [alike.live? key, Store.live?_later le, live, Entry.filter_later le]

theorem Shows.sweep (shows : deployment.Shows backend key shown) (other : Nat) :
    (deployment.sweep other).Shows backend key shown := by
  obtain ⟨store, serves, live⟩ := shows
  by_cases same : other = backend.id
  · subst same
    have alike := store.sweep_alike deployment.wall
    exact ⟨_, ⟨store?_sweep serves.here, serves.isOpen, serves.options⟩,
      (alike.live? key).trans live⟩
  · exact ⟨store, ⟨(store?_sweep_of_ne same).trans serves.here, serves.isOpen, serves.options⟩, live⟩

/-- An operation of the backend shows what it leaves in the store. -/
theorem Serves.perform (serves : deployment.Serves backend store) (context : Context)
    {op : Operation}
    (isOpen : (store.perform deployment.wall (deployment.standing context) op).2.isOpen = true)
    (options : (store.perform deployment.wall (deployment.standing context) op).2.options =
      store.options)
    (live : (store.perform deployment.wall (deployment.standing context) op).2.live?
      deployment.wall key = shown.filter fun entry => !entry.isExpired deployment.wall) :
    (deployment.perform backend.id context op).2.Shows backend key shown := by
  obtain ⟨-, there, wall⟩ := store?_perform serves.here context op
  exact ⟨_, ⟨there, isOpen, options.trans serves.options⟩, wall.symm ▸ live⟩

/-- An operation that does not alter the key leaves what is shown. -/
theorem Shows.perform (shows : deployment.Shows backend key shown) {other : Nat} (context : Context)
    {op : Operation} (leaves : other = backend.id → op.alters key = false) :
    (deployment.perform other context op).2.Shows backend key shown := by
  obtain ⟨store, serves, live⟩ := shows
  by_cases same : other = backend.id
  · subst same
    obtain ⟨options, isOpen, unaltered⟩ := store.live?_perform_of_spared deployment.wall
      (deployment.standing context) (leaves rfl)
    exact serves.perform context (isOpen.trans serves.isOpen) options (unaltered.trans live)
  · have there := (store?_perform_of_ne same context op).trans serves.here
    have wall := deployment.wall_perform other context op
    exact ⟨store, ⟨there, serves.isOpen, serves.options⟩, wall.symm ▸ live⟩

theorem Shows.answer (shows : deployment.Shows backend key shown) {call : Call}
    (leaves : call.Leaves backend.id key) :
    (answer call deployment).2.Shows backend key shown := by
  cases call with
  | perform other context op => exact shows.perform context leaves
  | wallClock | limitedContext _ => exact shows
  | ticket counter =>
      obtain ⟨store, serves, live⟩ := shows
      exact ⟨store, ⟨serves.here, serves.isOpen, serves.options⟩, live⟩
  | pause duration => exact shows.advanceTo _

/-- **What is shown stays**, unless something may alter the key. -/
theorem Shows.happen (shows : deployment.Shows backend key shown) {incident : Incident}
    (leaves : incident.Leaves backend.id key) :
    (deployment.happen incident).Shows backend key shown := by
  cases incident with
  | ask call => exact shows.answer leaves
  | advance duration => exact shows.advanceTo _
  | sweep other => exact shows.sweep other
  | cancel token =>
      obtain ⟨store, serves, live⟩ := shows
      exact ⟨store, ⟨serves.here, serves.isOpen, serves.options⟩, live⟩

/-- What is shown stays all the time. -/
theorem Shows.reach (shows : deployment.Shows backend key shown) {incidents : List Incident}
    (leaves : ∀ incident ∈ incidents, incident.Leaves backend.id key) :
    (deployment.reach incidents).Shows backend key shown :=
  reach_keeps (P := fun reached => reached.Shows backend key shown)
    (fun incident mem {_} shows => shows.happen (leaves incident mem)) shows

/-! ### Asking for what is shown -/

/-- **A read** is answered by what is shown. -/
theorem Shows.perform_get (shows : deployment.Shows backend key shown) {context : Context}
    (live : deployment.standing context = .live) :
    (deployment.perform backend.id context (.get key)).1 =
      (((shown.filter fun entry => !entry.isExpired deployment.wall).map Entry.value).elim
        (.error (.notFound key)) .ok) := by
  obtain ⟨store, serves, there⟩ := shows
  obtain ⟨answer, -, -⟩ := store?_perform serves.here context (.get key)
  rw [answer, live, Store.perform_of_open serves.isOpen, Store.carryOut_get, there]

/-- What is shown and has not expired is found. -/
theorem Shows.perform_get_of_unexpired {entry : Entry}
    (shows : deployment.Shows backend key (some entry))
    (unexpired : entry.isExpired deployment.wall = false) {context : Context}
    (live : deployment.standing context = .live) :
    (deployment.perform backend.id context (.get key)).1 = .ok entry.value := by
  rw [shows.perform_get live, Option.filter_some, unexpired]
  rfl

/-- Whether a key is there is answered by what is shown. -/
theorem Shows.perform_has (shows : deployment.Shows backend key shown) {context : Context}
    (live : deployment.standing context = .live) :
    (deployment.perform backend.id context (.has key)).1 =
      .ok (shown.filter fun entry => !entry.isExpired deployment.wall).isSome := by
  obtain ⟨store, serves, there⟩ := shows
  obtain ⟨answer, -, -⟩ := store?_perform serves.here context (.has key)
  have found : (store.readLive deployment.wall (store.options.fullKey key)).1.isSome =
      (shown.filter fun entry => !entry.isExpired deployment.wall).isSome := by
    rw [Store.readLive_fst, ← Store.live?_eq, there, Option.isSome_map]
  rw [answer, live, Store.perform_of_open serves.isOpen, ← found]
  rfl

/-- **What is written** is shown. -/
theorem Serves.perform_set (serves : deployment.Serves backend store) {context : Context}
    (live : deployment.standing context = .live) (key data : Bytes) (ttl : Duration) :
    (deployment.perform backend.id context (.set key data ttl)).1 = .ok () ∧
      (deployment.perform backend.id context (.set key data ttl)).2.Shows backend key
        (some (.write deployment.wall data (backend.options.lifetime ttl))) := by
  have written : store.perform deployment.wall (deployment.standing context) (.set key data ttl) =
      (.ok (), store.write deployment.wall key data ttl) := by
    rw [live, Store.perform_of_open serves.isOpen]
    rfl
  obtain ⟨answer, -, -⟩ := store?_perform serves.here context (.set key data ttl)
  refine ⟨answer.trans (congrArg Prod.fst written), serves.perform context ?_ ?_ ?_⟩
  all_goals rw [written]
  · exact serves.isOpen
  · rfl
  · rw [Store.write, Store.live?_insert, if_pos rfl, Store.newEntry, serves.options]

/-- **What is deleted** is not shown any more. -/
theorem Serves.perform_delete (serves : deployment.Serves backend store) {context : Context}
    (live : deployment.standing context = .live) (key : Bytes) :
    (deployment.perform backend.id context (.delete key)).1 = .ok () ∧
      (deployment.perform backend.id context (.delete key)).2.Shows backend key none := by
  have removed : store.perform deployment.wall (deployment.standing context) (.delete key) =
      (.ok (), store.remove key) := by
    rw [live, Store.perform_of_open serves.isOpen]
    rfl
  obtain ⟨answer, -, -⟩ := store?_perform serves.here context (.delete key)
  obtain ⟨options, isOpen⟩ := store.remove_kept key
  refine ⟨answer.trans (congrArg Prod.fst removed), serves.perform context ?_ ?_ ?_⟩
  all_goals rw [removed]
  · exact isOpen.trans serves.isOpen
  · exact options
  · exact (Store.live?_remove store deployment.wall key key).trans (if_pos rfl)

/-- Under a context that has ended, an operation is refused and changes nothing. -/
theorem Serves.perform_refused (serves : deployment.Serves backend store) {context : Context}
    {failure : CacheError} (ended : (deployment.standing context).failure? = some failure)
    {op : Operation} (data : op.isData = true) :
    (deployment.perform backend.id context op).1 = .error failure ∧
      (deployment.perform backend.id context op).2.Serves backend store := by
  have refused : store.perform deployment.wall (deployment.standing context) op =
      (.error failure, store) :=
    Store.perform_of_refusal (by rw [Store.refusal?, if_pos serves.isOpen, ended]) data
  obtain ⟨answer, there, -⟩ := store?_perform serves.here context op
  rw [refused] at answer there
  exact ⟨answer, there, serves.isOpen, serves.options⟩

theorem Shows.perform_refused (shows : deployment.Shows backend key shown) {context : Context}
    {failure : CacheError} (ended : (deployment.standing context).failure? = some failure)
    {op : Operation} (data : op.isData = true) :
    (deployment.perform backend.id context op).1 = .error failure ∧
      (deployment.perform backend.id context op).2.Shows backend key shown := by
  obtain ⟨store, serves, there⟩ := shows
  obtain ⟨answer, serves'⟩ := serves.perform_refused ended data
  have wall := deployment.wall_perform backend.id context op
  exact ⟨answer, store, serves', wall.symm ▸ there⟩

/-- **An attempt at a write** is refused and changes nothing, or what is written is shown. -/
theorem Shows.perform_set_cases (shows : deployment.Shows backend key shown) (context : Context)
    (data : Bytes) (ttl : Duration) :
    (∃ failure, (deployment.perform backend.id context (.set key data ttl)).1 = .error failure ∧
        (deployment.perform backend.id context (.set key data ttl)).2.Shows backend key shown) ∨
      ((deployment.perform backend.id context (.set key data ttl)).1 = .ok () ∧
        (deployment.perform backend.id context (.set key data ttl)).2.Shows backend key
          (some (.write deployment.wall data (backend.options.lifetime ttl)))) := by
  cases live : deployment.standing context with
  | live =>
      obtain ⟨store, serves, -⟩ := shows
      exact .inr (serves.perform_set live key data ttl)
  | canceled => exact .inl ⟨_, shows.perform_refused (by rw [live]; rfl) rfl⟩
  | pastDeadline => exact .inl ⟨_, shows.perform_refused (by rw [live]; rfl) rfl⟩

end Deployment

/-! ### A program amid incidents -/

/-- A program from its first question to its end: the result, the notes of its questions, and the
deployment that it leaves. -/
structure Passage (α : Type) where
  result : α
  notes : List Note
  deployment : Deployment

namespace Deployment

variable {α : Type}

/-- Runs a program to its end amid incidents: each gap is what happens before the next question. -/
def runAmid (gaps : List (List Incident)) : Program α → Deployment → Passage α
  | .done result, deployment => ⟨result, [], deployment⟩
  | .ask call next, deployment =>
    let asked := deployment.reach (gaps.headD [])
    let (reply, behind) := answer call asked
    let rest := runAmid gaps.tail (next reply) behind
    ⟨rest.result, ⟨0, asked.wall, call, reply⟩ :: rest.notes, rest.deployment⟩

/-- What happens in the next gap happens in a gap. -/
theorem exists_gap {gaps : List (List Incident)} {incident : Incident}
    (mem : incident ∈ gaps.headD []) : ∃ gap ∈ gaps, incident ∈ gap := by
  cases gaps with
  | nil => cases mem
  | cons gap gaps => exact ⟨gap, List.mem_cons_self, mem⟩

/-- The notes lead the program to its end. -/
theorem walks_runAmid (gaps : List (List Incident)) (program : Program α) (deployment : Deployment) :
    program.Walks (runAmid gaps program deployment).notes
      (.done (runAmid gaps program deployment).result) := by
  induction program generalizing gaps deployment with
  | done result => exact .stay
  | ask call next ih => exact .step (ih _ gaps.tail _)

/-- A question amid incidents is asked after the first gap. -/
theorem runAmid_ask (gaps : List (List Incident)) (call : Call) (next : call.Answer → Program α)
    (deployment : Deployment) :
    let asked := deployment.reach (gaps.headD [])
    let rest := runAmid gaps.tail (next (answer call asked).1) (answer call asked).2
    runAmid gaps (.ask call next) deployment =
      ⟨rest.result, ⟨0, asked.wall, call, (answer call asked).1⟩ :: rest.notes, rest.deployment⟩ :=
  rfl

/-- A program that goes on with its result goes on amid the incidents that are left. -/
theorem runAmid_bind {β : Type} (gaps : List (List Incident)) (program : Program α)
    (next : α → Program β) (deployment : Deployment) :
    let first := runAmid gaps program deployment
    let rest := runAmid (gaps.drop first.notes.length) (next first.result) first.deployment
    runAmid gaps (program.bind next) deployment =
      ⟨rest.result, first.notes ++ rest.notes, rest.deployment⟩ := by
  induction program generalizing gaps deployment with
  | done result => rfl
  | ask call after ih =>
      dsimp only at ih ⊢
      rw [Program.bind_ask, runAmid_ask, runAmid_ask]
      dsimp only
      rw [ih, List.length_cons, List.drop_tail, List.cons_append]

/-- **What every incident and every question keeps**, with its note, is kept to the end. -/
theorem runAmid_keeps {asks : Call → Prop} {gives : α → Prop} {program : Program α}
    (always : program.Always asks gives) {P : Deployment → List Note → Prop}
    {gaps : List (List Incident)}
    (incident : ∀ gap ∈ gaps, ∀ incident ∈ gap, ∀ {reached log}, P reached log →
      P (reached.happen incident) log)
    (question : ∀ {call reached log}, asks call → P reached log →
      P (answer call reached).2 (log ++ [⟨0, reached.wall, call, (answer call reached).1⟩]))
    {deployment : Deployment} {log : List Note} (start : P deployment log) :
    P (runAmid gaps program deployment).deployment
      (log ++ (runAmid gaps program deployment).notes) := by
  induction program generalizing gaps deployment log with
  | done result =>
      rw [runAmid, List.append_nil]
      exact start
  | ask call next ih =>
      have asked : P (deployment.reach (gaps.headD [])) log := by
        refine reach_keeps (P := fun reached => P reached log) (fun event mem {_} => ?_) start
        obtain ⟨gap, mem', mem⟩ := exists_gap mem
        exact incident gap mem' event mem
      rw [runAmid, List.append_cons]
      exact ih _ (always.2 _) (fun gap mem => incident gap (List.mem_of_mem_tail mem))
        (question always.1 asked)

end Deployment

end TimedCache
