import Mathlib.Data.List.Infix
import TimedCache.EntityCache
import TimedCache.Proofs.Attempt
import TimedCache.Proofs.Deployment.Crowd
import TimedCache.Proofs.Documents

/-!
# Forgetting entities that change

Users and products are read through the cache from a **source of truth** that may change at any
moment, and who changes an entity has the cache forget it.  Any number of readings and forgettings
are under way at once on one backend in the process.

**The late store.**  A reading that has loaded an entity stores it later.  If the entity changes and is
forgotten in between, then the old one is stored after all, and it is served from then on, though
the change is over and the forgetting has succeeded (`read_stale_of_late_store`).

**Otherwise** forgetting does what it is for.  If no reading that had loaded the entity before the
change stores it after the deletion, every reading that starts after the forgetting gives what the
source tells (`read_fresh_of_forgotten`).  For then what it looks up was stored after the deletion, and
so it was loaded after the change.

## Main Definitions

* `EntityCache.Catalogue` — a cache of entities and the source of truth behind it
* `EntityCache.Errand` — a reading or a forgetting
* `EntityCache.Reading` — the course of a reading
-/

namespace TimedCache

namespace EntityCache

/-! ### Readings and forgettings -/

/-- The entities that are forgotten when they change. -/
inductive Kind where
  | user
  | product
  deriving DecidableEq, Repr

/-- The key of an entity. -/
def Kind.key : Kind → Bytes → DomainKey
  | user, id => .user id
  | product, id => .product id

/-- The lifetime of an entity. -/
def Kind.lifetime (policy : LifetimePolicy) : Kind → Duration
  | user => policy.user
  | product => policy.product

/-- Different entities have different keys. -/
theorem Kind.key_inj {kind kind' : Kind} {id id' : Bytes}
    (same : (kind.key id).text = (kind'.key id').text) : kind = kind' ∧ id = id' := by
  cases kind <;> cases kind'
  case user.user => exact ⟨rfl, List.append_cancel_left same⟩
  case product.product => exact ⟨rfl, List.append_cancel_left same⟩
  case user.product => exact nomatch congrArg List.head? same
  case product.user => exact nomatch congrArg List.head? same

/-- A cache of entities and the source of truth behind it: how each entity is written and read, which
question its source is asked, and what the answer tells.  Asking the source puts nothing into the
cache. -/
structure Catalogue (Entity : Kind → Type) where
  cache : EntityCache
  codec : (kind : Kind) → Codec (Entity kind)
  question : Kind → Bytes → Call
  told : (kind : Kind) → (id : Bytes) → (question kind id).Answer → Except Bytes (Entity kind)
  spares : ∀ kind id, (question kind id).Spares cache.backend.id

/-- A reading or a forgetting of an entity under a context. -/
inductive Errand where
  | read (kind : Kind) (context : Context) (id : Bytes)
  | forget (kind : Kind) (context : Context) (id : Bytes)

/-- What an errand gives. -/
@[reducible] def Errand.Result (Entity : Kind → Type) : Errand → Type
  | read kind _ _ => Except CacheError (Entity kind)
  | forget _ _ _ => Except CacheError Unit

namespace Catalogue

variable {Entity : Kind → Type} (catalogue : Catalogue Entity)

/-- The backend of the cache. -/
abbrev backend : Nat := catalogue.cache.backend.id

/-- Loads an entity from the source. -/
def load (kind : Kind) (id : Bytes) : Compute (Entity kind) :=
  .ask (catalogue.question kind id) fun answer => .done (catalogue.told kind id answer)

/-- What is done on an errand. -/
def program : (errand : Errand) → Program (errand.Result Entity)
  | .read .user context id =>
    catalogue.cache.user (catalogue.codec .user) context id (catalogue.load .user id)
  | .read .product context id =>
    catalogue.cache.product (catalogue.codec .product) context id (catalogue.load .product id)
  | .forget .user context id => catalogue.cache.invalidateUser context id
  | .forget .product context id => catalogue.cache.invalidateProduct context id

/-- What the source tells of an entity at a moment. -/
def tells (deployment : Deployment) (kind : Kind) (id : Bytes) : Except Bytes (Entity kind) :=
  catalogue.told kind id (Deployment.answer (catalogue.question kind id) deployment).1

variable (kind : Kind) (context : Context) (id : Bytes)

/-- The look-up of a reading. -/
abbrev lookup : Call := .perform catalogue.backend context (.get (kind.key id).text)

variable {kind}

/-- The store of a reading. -/
abbrev keep (value : Entity kind) : Call :=
  .perform catalogue.backend context (.set (kind.key id).text ((catalogue.codec kind).encode value)
    (catalogue.cache.documents.lifetime (kind.lifetime catalogue.cache.policy)))

variable (kind)

/-- What is done once the source was asked. -/
def afterLoad (answer : (catalogue.question kind id).Answer) :
    Program (Except CacheError (Entity kind)) :=
  match catalogue.told kind id answer with
  | .error reason => .done (.error (.computeFailed reason))
  | .ok value =>
    .ask (catalogue.keep context id value) fun _ => .done ((catalogue.codec kind).readBack value)

/-- What is done once the entity was looked up. -/
def afterLookup : Except CacheError (Entity kind) → Program (Except CacheError (Entity kind))
  | .ok value => .done (.ok value)
  | .error _ => .ask (catalogue.question kind id) (catalogue.afterLoad kind context id)

theorem program_read : catalogue.program (.read kind context id) =
    .ask (catalogue.lookup kind context id) fun answer =>
      catalogue.afterLookup kind context id ((catalogue.codec kind).read answer) := by
  have cached : catalogue.program (.read kind context id) =
      catalogue.cache.cached (catalogue.codec kind) context (kind.key id)
        (kind.lifetime catalogue.cache.policy) (catalogue.load kind id) := by
    cases kind <;> rfl
  rw [cached, EntityCache.cached, ReadThrough.getOrSetJson_eq]
  refine congrArg (Program.ask _) (funext fun answer => ?_)
  cases (catalogue.codec kind).read answer with
  | ok value => rfl
  | error failure =>
      refine congrArg (Program.ask _) (funext fun answer => ?_)
      unfold afterLoad
      dsimp
      cases catalogue.told kind id answer <;> rfl

theorem program_forget : ∃ others patterns, catalogue.program (.forget kind context id) =
    catalogue.cache.forgetAll context ((kind.key id).text :: others) patterns := by
  cases kind <;> exact ⟨_, _, rfl⟩

/-- A forgetting puts nothing into the backend. -/
theorem program_forget_spares :
    (catalogue.program (.forget kind context id)).Always (Call.Spares catalogue.backend)
      fun _ => True := by
  obtain ⟨others, patterns, forgets⟩ := catalogue.program_forget kind context id
  rw [forgets]
  refine (Program.sequence_always ?_).bind fun results _ => trivial
  refine List.forall_mem_append.mpr ⟨?_, ?_⟩
  · rintro _ mem
    obtain ⟨key, -, rfl⟩ := List.mem_map.mp mem
    exact ⟨fun _ => rfl, fun _ => trivial⟩
  · rintro _ mem
    obtain ⟨pattern, -, rfl⟩ := List.mem_map.mp mem
    exact ⟨fun _ => rfl, fun _ => trivial⟩

/-- An errand puts nothing into the backend but documents of entities, each under its own key. -/
theorem program_tame (errand : Errand) :
    (catalogue.program errand).Always (Call.Tame catalogue.backend) fun _ => True := by
  cases errand with
  | read kind context id =>
      rw [program_read]
      refine ⟨.inl fun _ => rfl, fun answer => ?_⟩
      dsimp only
      cases (catalogue.codec kind).read answer with
      | ok value => trivial
      | error failure =>
          refine ⟨.inl (catalogue.spares kind id), fun answer => ?_⟩
          unfold afterLoad
          cases catalogue.told kind id answer with
          | error reason => trivial
          | ok value => exact ⟨.inr ⟨context, _, _, _, rfl⟩, fun _ => trivial⟩
  | forget kind context id => exact (catalogue.program_forget_spares kind context id).mono .inl

end Catalogue

/-! ### The course of a reading -/

variable {Entity : Kind → Type} {catalogue : Catalogue Entity} {kind : Kind} {context : Context}
  {id : Bytes} {notes : List Note}

/-- The notes of a reading, and what is left of it. -/
inductive Reading (catalogue : Catalogue Entity) (kind : Kind) (context : Context) (id : Bytes) :
    List Note → Program (Except CacheError (Entity kind)) → Prop
  | begun :
      Reading catalogue kind context id []
        (.ask (catalogue.lookup kind context id) fun answer =>
          catalogue.afterLookup kind context id ((catalogue.codec kind).read answer))
  /-- The look-up gave a document that can be read: that is the result. -/
  | found {worker wall : Nat} {data : Bytes} {value : Entity kind}
      (reads : (catalogue.codec kind).read (.ok data) = .ok value) :
      Reading catalogue kind context id
        [⟨worker, wall, catalogue.lookup kind context id, .ok data⟩] (.done (.ok value))
  /-- The look-up was in vain: the source is about to be asked. -/
  | missed {worker wall : Nat} {answer : Except CacheError Bytes} :
      Reading catalogue kind context id
        [⟨worker, wall, catalogue.lookup kind context id, answer⟩]
        (.ask (catalogue.question kind id) (catalogue.afterLoad kind context id))
  /-- The source has told nothing. -/
  | failed {worker worker' wall wall' : Nat} {answer : Except CacheError Bytes}
      {answer' : (catalogue.question kind id).Answer} {reason : Bytes}
      (told : catalogue.told kind id answer' = .error reason) :
      Reading catalogue kind context id
        [⟨worker, wall, catalogue.lookup kind context id, answer⟩,
          ⟨worker', wall', catalogue.question kind id, answer'⟩]
        (.done (.error (.computeFailed reason)))
  /-- The source has told the entity: it is about to be stored. -/
  | loaded {worker worker' wall wall' : Nat} {answer : Except CacheError Bytes}
      {answer' : (catalogue.question kind id).Answer} {value : Entity kind}
      (told : catalogue.told kind id answer' = .ok value) :
      Reading catalogue kind context id
        [⟨worker, wall, catalogue.lookup kind context id, answer⟩,
          ⟨worker', wall', catalogue.question kind id, answer'⟩]
        (.ask (catalogue.keep context id value) fun _ =>
          .done ((catalogue.codec kind).readBack value))
  /-- The store was answered, one way or the other. -/
  | kept {worker worker' worker'' wall wall' wall'' : Nat} {answer : Except CacheError Bytes}
      {answer' : (catalogue.question kind id).Answer} {value : Entity kind}
      {answer'' : Except CacheError Unit}
      (told : catalogue.told kind id answer' = .ok value) :
      Reading catalogue kind context id
        [⟨worker, wall, catalogue.lookup kind context id, answer⟩,
          ⟨worker', wall', catalogue.question kind id, answer'⟩,
          ⟨worker'', wall'', catalogue.keep context id value, answer''⟩]
        (.done ((catalogue.codec kind).readBack value))

/-- **The course of a reading** is all that its program can do. -/
theorem reading_of_walks {rest : Program (Except CacheError (Entity kind))}
    (walks : (catalogue.program (.read kind context id)).Walks notes rest) :
    Reading catalogue kind context id notes rest := by
  rw [catalogue.program_read] at walks
  cases walks with
  | stay => exact .begun
  | @step worker wall _ answer _ notes _ walks =>
      dsimp only at walks
      cases reads : (catalogue.codec kind).read answer with
      | ok value =>
          rw [reads] at walks
          cases answer with
          | error failure => cases reads
          | ok data =>
              cases walks
              exact .found reads
      | error failure =>
          rw [reads] at walks
          cases walks with
          | stay => exact .missed
          | @step worker' wall' _ answer' _ notes _ walks =>
              unfold Catalogue.afterLoad at walks
              cases told : catalogue.told kind id answer' with
              | error reason =>
                  rw [told] at walks
                  cases walks
                  exact .failed told
              | ok value =>
                  rw [told] at walks
                  cases walks with
                  | stay => exact .loaded told
                  | step walks =>
                      cases walks
                      exact .kept told

namespace Reading

variable {rest : Program (Except CacheError (Entity kind))}

/-- What a reading has stored the source had told before, and it is stored under the key of the
entity. -/
theorem of_stored (reading : Reading catalogue kind context id notes rest) {store : Note}
    (mem : store ∈ notes) {key data : Bytes} {ttl : Duration}
    (stored : store.stored? catalogue.backend = some (key, data, ttl)) :
    (kind.key id).text = key ∧ ∃ lookup worker wall answer value,
      notes = [lookup, ⟨worker, wall, catalogue.question kind id, answer⟩, store] ∧
        catalogue.told kind id answer = .ok value ∧ (catalogue.codec kind).encode value = data := by
  have looked : ∀ {worker wall : Nat} {answer : Except CacheError Bytes},
      store ≠ ⟨worker, wall, catalogue.lookup kind context id, answer⟩ := by
    rintro worker wall answer rfl
    cases stored
  have asked : ∀ {worker wall : Nat} {answer : (catalogue.question kind id).Answer},
      store ≠ ⟨worker, wall, catalogue.question kind id, answer⟩ := by
    rintro worker wall answer rfl
    cases (stored?_of_spares (catalogue.spares kind id)).symm.trans stored
  cases reading with
  | begun => cases mem
  | found reads => exact absurd (List.mem_singleton.mp mem) looked
  | missed => exact absurd (List.mem_singleton.mp mem) looked
  | failed told => 
      obtain same | same := List.mem_pair.mp mem
      · exact absurd same looked
      · exact absurd same asked
  | loaded told => 
      obtain same | same := List.mem_pair.mp mem
      · exact absurd same looked
      · exact absurd same asked
  | @kept worker worker' worker'' wall wall' wall'' answer answer' value answer'' told =>
      simp only [List.mem_cons, List.not_mem_nil, or_false] at mem
      obtain same | same | rfl := mem
      · exact absurd same looked
      · exact absurd same asked
      · cases answer'' with
        | error failure => cases stored
        | ok done =>
            rw [Note.stored?, if_pos rfl] at stored
            cases stored
            exact ⟨rfl, _, worker', wall', answer', value, rfl, told, rfl⟩

end Reading

/-- A forgetting that has succeeded has deleted the key of the entity. -/
theorem exists_delete_of_forgotten
    (walks : (catalogue.program (.forget kind context id)).Walks notes (.done (.ok ()))) :
    ∃ delete ∈ notes, delete.clears catalogue.backend (kind.key id).text = true ∧
      delete.stored? catalogue.backend = none := by
  obtain ⟨others, patterns, forgets⟩ := catalogue.program_forget kind context id
  rw [forgets] at walks
  obtain ⟨own, sub, walks⟩ := Program.walks_of_attemptAll walks
    (List.mem_append_left _ (List.mem_map_of_mem List.mem_cons_self))
  cases walks with
  | @step worker wall _ answer _ _ _ walks =>
      cases walks
      let delete := Operation.delete (kind.key id).text
      refine ⟨_, sub List.mem_cons_self, ?_, rfl⟩
      exact Note.clears_iff.mpr ⟨worker, wall, context, delete, (), rfl, decide_eq_true rfl⟩

/-! ### Many errands -/

/-- Errands under way on a deployment. -/
abbrev Errands (Entity : Kind → Type) := Crowd (Errand.Result Entity)

/-- From some moment on, the source tells the same of an entity throughout some moves, in which others
put nothing into the backend and nothing fails on the way. -/
structure Settled (catalogue : Catalogue Entity) (changed : Errands Entity)
    (moves : List (Crowd.Move Errand)) (kind : Kind) (id : Bytes) (value : Entity kind) : Prop where
  spares : ∀ move ∈ moves, move.Spares catalogue.backend
  faultless : ∀ move ∈ moves, move.Faultless
  tells : ∀ front, front <+: moves →
    catalogue.tells (changed.reach catalogue.program front).deployment kind id = .ok value

/-- **No late store**: once a forgetter has deleted a key, it is stored only by those who had not yet
loaded anything before the change.  The second note of a reading is of its load. -/
def NoLateStore (backend : Nat) (key : Bytes) (forgetter : Nat) (before log : List Note) : Prop :=
  log.Pairwise fun delete store =>
    delete.worker = forgetter → delete.clears backend key = true →
      (store.storedAt? backend key).isSome = true → (notesOf store.worker before).length < 2

variable {changed : Errands Entity} {moves : List (Crowd.Move Errand)} {value : Entity kind}

theorem settled_of_inits (spares : ∀ move ∈ moves, move.Spares catalogue.backend)
    (faultless : ∀ move ∈ moves, move.Faultless)
    (tells : ∀ front ∈ moves.inits,
      catalogue.tells (changed.reach catalogue.program front).deployment kind id = .ok value) :
    Settled catalogue changed moves kind id value :=
  ⟨spares, faultless, fun front before => tells front ((List.mem_inits front moves).mpr before)⟩

/-- Whoever asks the source after the change is told the new entity. -/
theorem Settled.told (settled : Settled catalogue changed moves kind id value) {more : List Note}
    (log : (changed.reach catalogue.program moves).log = changed.log ++ more) {worker wall : Nat}
    {answer : (catalogue.question kind id).Answer}
    (mem : ⟨worker, wall, catalogue.question kind id, answer⟩ ∈ more) :
    catalogue.told kind id answer = .ok value := by
  obtain ⟨front, before, answered⟩ := Crowd.exists_answer_of_noted settled.faultless log mem
  exact (congrArg _ answered).trans (settled.tells front before)

/-- Where a worker has few notes before, its second note is among the later ones. -/
theorem second_mem_later {worker : Nat} {log more own : List Note} {first second : Note}
    (few : (notesOf worker log).length < 2)
    (all : notesOf worker (log ++ more) = first :: second :: own) : second ∈ more := by
  rw [notesOf_append] at all
  have later : second ∈ notesOf worker more := by
    match before : notesOf worker log with
    | [] =>
        rw [before, List.nil_append] at all
        rw [all]
        exact List.mem_cons_of_mem first List.mem_cons_self
    | [note] =>
        rw [before, List.singleton_append] at all
        rw [(List.cons.inj all).2]
        exact List.mem_cons_self
    | _ :: _ :: _ =>
        rw [before, List.length_cons, List.length_cons] at few
        omega
  exact (List.mem_filter.mp later).1

/-- **A store of those who had not loaded before the change** is a store of the new entity. -/
theorem Settled.of_stored (settled : Settled catalogue changed moves kind id value)
    (follows : (changed.reach catalogue.program moves).Follows catalogue.program) {store : Note}
    (mem : store ∈ (changed.reach catalogue.program moves).log) {data : Bytes} {ttl : Duration}
    (stored : store.stored? catalogue.backend = some ((kind.key id).text, data, ttl))
    (few : (notesOf store.worker changed.log).length < 2) :
    data = (catalogue.codec kind).encode value := by
  obtain ⟨⟨errand, rest⟩, there⟩ :
      ∃ worker, (changed.reach catalogue.program moves).workers[store.worker]? = some worker :=
    ⟨_, List.getElem?_eq_getElem (follows.known store mem)⟩
  have walks := follows.walks there
  have own : store ∈ notesOf store.worker (changed.reach catalogue.program moves).log :=
    List.mem_filter.mpr ⟨mem, decide_eq_true rfl⟩
  obtain ⟨more, log⟩ := Crowd.log_reach catalogue.program changed moves
  cases errand with
  | forget kind' context id' =>
      have always := catalogue.program_forget_spares kind' context id'
      cases (stored?_of_spares ((always.walks walks).1 store own)).symm.trans stored
  | read kind' context id' =>
      obtain ⟨same, lookup, worker, wall, answer, value', all, told, rfl⟩ :=
        (reading_of_walks walks).of_stored own stored
      obtain ⟨rfl, rfl⟩ := Kind.key_inj same
      rw [log] at all
      cases told.symm.trans (settled.told log (second_mem_later few all))
      rfl

/-- **Every look-up behind a forgetting** gives the document of the new entity, if any, unless there was
a late store. -/
theorem Settled.of_found (settled : Settled catalogue changed moves kind id value) {initial : Store}
    (sound : (changed.reach catalogue.program moves).Sound catalogue.program catalogue.backend
      initial) {forgetter : Nat}
    (prompt : NoLateStore catalogue.backend (kind.key id).text forgetter changed.log
      (changed.reach catalogue.program moves).log)
    {older newer : List Note} {lookup : Note} {data : Bytes}
    (split : (changed.reach catalogue.program moves).log = older ++ lookup :: newer)
    (found : lookup.found? catalogue.backend = some ((kind.key id).text, data))
    {delete : Note} (mem : delete ∈ older) (own : delete.worker = forgetter)
    (clears : delete.clears catalogue.backend (kind.key id).text = true)
    (unstored : delete.stored? catalogue.backend = none) :
    data = (catalogue.codec kind).encode value := by
  have changes := Note.change?_of_clears unstored clears
  obtain ⟨unchanged, -⟩ | ⟨wall, ttl, last⟩ := sound.tells older newer lookup _ data split found
  · exact absurd unchanged (lastOf_ne_none mem changes)
  · obtain ⟨oldest, store, between, rfl, changed, quiet⟩ := exists_note_of_lastOf last
    have told := Note.storedAt?_of_change? changed
    obtain ⟨-, stored⟩ := Note.storedAt?_eq_some_iff.mp told
    -- The deletion comes before the last change, because it is a change, and not a store.
    have before : delete ∈ oldest := by
      obtain before | rfl | after := by simpa only [List.mem_append, List.mem_cons] using mem
      · exact before
      · cases unstored.symm.trans stored
      · cases (quiet delete after).symm.trans changes
    obtain ⟨front, back, rfl⟩ := List.append_of_mem before
    have order : (front ++ delete :: back) ++ store :: between ++ lookup :: newer =
        front ++ delete :: (back ++ store :: (between ++ lookup :: newer)) := by
      simp only [List.append_assoc, List.cons_append]
    rw [NoLateStore, split, order] at prompt
    have few := (List.pairwise_cons.mp (List.pairwise_append.mp prompt).2.1).1 store
      (List.mem_append_right back List.mem_cons_self) own clears (Option.isSome_of_eq_some told)
    refine settled.of_stored sound.follows ?_ stored few
    rw [split]
    exact List.mem_append_left _ (List.mem_append_right _ List.mem_cons_self)

/-- **A reading behind a forgetting** gives the new entity, unless there was a late store. -/
theorem Settled.of_reading (settled : Settled catalogue changed moves kind id value)
    {initial : Store} (sound : (changed.reach catalogue.program moves).Sound catalogue.program
      catalogue.backend initial) {forgetter : Nat}
    (prompt : NoLateStore catalogue.backend (kind.key id).text forgetter changed.log
      (changed.reach catalogue.program moves).log)
    {atFirst since : List Note}
    (log : (changed.reach catalogue.program moves).log = changed.log ++ atFirst ++ since)
    {delete : Note} (mem : delete ∈ changed.log ++ atFirst) (own : delete.worker = forgetter)
    (clears : delete.clears catalogue.backend (kind.key id).text = true)
    (unstored : delete.stored? catalogue.backend = none)
    {rest : Program (Except CacheError (Entity kind))}
    (reading : Reading catalogue kind context id notes rest) (asked : ∀ note ∈ notes, note ∈ since) :
    rest = .done ((catalogue.codec kind).readBack value) ∨
      ∃ call next, rest = .ask call next ∧ notes.length < 3 := by
  have told : ∀ {worker wall : Nat} {answer : (catalogue.question kind id).Answer},
      ⟨worker, wall, catalogue.question kind id, answer⟩ ∈ notes →
        catalogue.told kind id answer = .ok value :=
    fun mem => settled.told (log.trans (List.append_assoc _ _ _))
      (List.mem_append_right _ (asked _ mem))
  cases reading with
  | begun => exact .inr ⟨_, _, rfl, by simp⟩
  | found reads =>
      obtain ⟨front, back, rfl⟩ := List.append_of_mem (asked _ List.mem_cons_self)
      have same := settled.of_found sound prompt (log.trans (List.append_assoc _ _ _).symm)
        (if_pos rfl) (List.mem_append_left _ mem) own clears unstored
      rw [Codec.readBack, ← same, reads]
      exact .inl rfl
  | missed => exact .inr ⟨_, _, rfl, by simp⟩
  | failed unknown => cases unknown.symm.trans (told (List.mem_cons_of_mem _ List.mem_cons_self))
  | loaded => exact .inr ⟨_, _, rfl, by simp⟩
  | kept loaded =>
      cases loaded.symm.trans (told (List.mem_cons_of_mem _ List.mem_cons_self))
      exact .inl rfl

/-- **Reading after forgetting.**  An entity has changed, and the source tells the new one from then on.
If a forgetting of it has succeeded, and nobody who had loaded before the change stores the entity
after it was deleted, then every reading that has started since gives the new one, as it is read back
from its document, with its third question at the latest. -/
theorem read_fresh_of_forgotten (catalogue : Catalogue Entity) {deployment : Deployment}
    {initial : Store} (here : deployment.store? catalogue.backend = some initial)
    {earlier between later : List (Crowd.Move Errand)}
    (spares : ∀ move ∈ earlier, move.Spares catalogue.backend) :
    let start : Errands Entity := .fresh _ deployment
    let changed := start.reach catalogue.program earlier
    let forgotten := changed.reach catalogue.program between
    let final := forgotten.reach catalogue.program later
    ∀ {kind id value}, Settled catalogue changed (between ++ later) kind id value →
    ∀ {forgetter context},
      forgotten.workers[forgetter]? = some ⟨.forget kind context id, .done (.ok ())⟩ →
      NoLateStore catalogue.backend (kind.key id).text forgetter changed.log final.log →
    ∀ {reader context rest}, forgotten.workers.length ≤ reader →
      final.workers[reader]? = some ⟨.read kind context id, rest⟩ →
      rest = .done ((catalogue.codec kind).readBack value) ∨
        ∃ call next, rest = .ask call next ∧ (notesOf reader final.log).length < 3 := by
  intro start changed forgotten final kind id value settled forgetter context forgot prompt reader
    context' rest behind there
  have whole : changed.reach catalogue.program (between ++ later) = final :=
    Crowd.reach_append catalogue.program changed between later
  have sound : final.Sound catalogue.program catalogue.backend initial := by
    rw [← whole]
    exact ((Crowd.sound_fresh catalogue.program here).reach catalogue.program_tame spares).reach
      catalogue.program_tame settled.spares
  have known : forgotten.Follows catalogue.program :=
    ((Crowd.follows_fresh catalogue.program deployment).reach earlier).reach between
  obtain ⟨atFirst, before⟩ := Crowd.log_reach catalogue.program changed between
  obtain ⟨since, log⟩ := Crowd.log_reach catalogue.program forgotten later
  obtain ⟨delete, mem, clears, unstored⟩ := exists_delete_of_forgotten (known.walks forgot)
  obtain ⟨mem, own⟩ := List.mem_filter.mp mem
  -- All that the reading has asked it has asked since.
  have asked : ∀ note ∈ notesOf reader final.log, note ∈ since := by
    intro note mem
    rw [log, notesOf_append, known.notesOf_eq_nil behind] at mem
    exact (List.mem_filter.mp mem).1
  have reading := reading_of_walks (sound.follows.walks there)
  rw [before] at log mem
  rw [← whole] at sound prompt
  exact settled.of_reading sound prompt ((congrArg Crowd.log whole).trans log) mem
    (of_decide_eq_true own) clears unstored reading asked

/-- A cache of texts that tell of users and products, and their source of truth: another backend in
the process. -/
def sampleBackends : (Backend × Backend) × Deployment :=
  let (cache, deployment) := (Deployment.start 0).addLocal .standard (.ofSecs 30)
  let (source, deployment) := deployment.addLocal .standard (.ofSecs 30)
  ((cache, source), deployment)

/-- Nobody ends it. -/
def sampleContext : Context := ⟨none, none⟩

def sampleCatalogue : Catalogue fun _ => Bytes where
  cache := ⟨sampleBackends.1.1, .standard⟩
  codec := fun _ => ⟨Json.str, Json.Reader.text⟩
  question := fun kind id =>
    .perform sampleBackends.1.2.id sampleContext (.get (kind.key id).text)
  told := fun _ _ answer => answer.mapError fun _ => utf8 "unknown"
  spares := fun _ _ own => nomatch own

/-- The source changes. -/
def sampleChange (value : Bytes) : Crowd.Move Errand :=
  .others (.perform sampleBackends.1.2.id sampleContext
    (.set (Kind.user.key (utf8 "1")).text value .zero))

theorem sampleChange_spares (value : Bytes) :
    (sampleChange value).Spares sampleCatalogue.backend := fun own => nomatch own

/-- A reading has loaded a user and not yet stored it when the user changes. -/
def sampleEarlier : List (Crowd.Move Errand) :=
  [sampleChange (utf8 "old"), .start (.read .user sampleContext (utf8 "1")), .work 0 none,
    .work 0 none, sampleChange (utf8 "new")]

def sampleChanged : Errands fun _ => Bytes :=
  (Crowd.fresh _ sampleBackends.2).reach sampleCatalogue.program sampleEarlier

/-- The user is forgotten. -/
def sampleForgetting : List (Crowd.Move Errand) :=
  [.start (.forget .user sampleContext (utf8 "1")), .work 1 none, .work 1 none]

/-- Another reading is under way. -/
def sampleReading : List (Crowd.Move Errand) :=
  [.start (.read .user sampleContext (utf8 "1")), .work 2 none, .work 2 none, .work 2 none]

/-- Where the first reading stores before the user is forgotten, the second one gives the new user. -/
theorem read_fresh_of_forgotten_sampleReading :
    let forgotten := sampleChanged.reach sampleCatalogue.program (.work 0 none :: sampleForgetting)
    let final := forgotten.reach sampleCatalogue.program sampleReading
    Settled sampleCatalogue sampleChanged ((.work 0 none :: sampleForgetting) ++ sampleReading) .user
        (utf8 "1") (utf8 "new") ∧
      forgotten.workers[1]? =
        some ⟨.forget .user sampleContext (utf8 "1"), .done (.ok ())⟩ ∧
      NoLateStore sampleCatalogue.backend (Kind.user.key (utf8 "1")).text 1 sampleChanged.log
        final.log ∧
      final.workers[2]? = some ⟨.read .user sampleContext (utf8 "1"), .done (.ok (utf8 "new"))⟩ := by
  intro forgotten final
  have here : sampleBackends.2.store? sampleCatalogue.backend = some (.fresh .standard) := rfl
  have spares : ∀ move ∈ sampleEarlier, move.Spares sampleCatalogue.backend := by
    simp only [sampleEarlier, List.forall_mem_cons]
    exact ⟨sampleChange_spares _, trivial, trivial, trivial, sampleChange_spares _,
      List.forall_mem_nil _⟩
  have settled : Settled sampleCatalogue sampleChanged
      ((.work 0 none :: sampleForgetting) ++ sampleReading) .user (utf8 "1") (utf8 "new") := by
    refine settled_of_inits ?_ ?_ (by with_unfolding_all decide)
    · simp [sampleForgetting, sampleReading, Crowd.Move.Spares]
    · simp [sampleForgetting, sampleReading, Crowd.Move.Faultless]
  have forgot : forgotten.workers[1]? =
      some ⟨.forget .user sampleContext (utf8 "1"), .done (.ok ())⟩ := by
    with_unfolding_all rfl
  have prompt : NoLateStore sampleCatalogue.backend (Kind.user.key (utf8 "1")).text 1
      sampleChanged.log final.log := by
    unfold NoLateStore
    with_unfolding_all decide
  obtain ⟨rest, there⟩ : ∃ rest, final.workers[2]? =
      some ⟨.read .user sampleContext (utf8 "1"), rest⟩ := ⟨_, by with_unfolding_all rfl⟩
  have through : (notesOf 2 final.log).length = 3 := by with_unfolding_all rfl
  obtain rfl | ⟨call, next, rfl, few⟩ :=
    read_fresh_of_forgotten sampleCatalogue here spares settled forgot prompt (Nat.le_refl 2) there
  · exact ⟨settled, forgot, prompt, there⟩
  · exact absurd through (Nat.ne_of_lt few)

/-- **A late store.**  The user has changed, it was forgotten since, with success, and it has not changed
again; still a reading that has started after the forgetting gives the old one, because the first
reading has stored it in between. -/
theorem read_stale_of_late_store :
    let forgotten := sampleChanged.reach sampleCatalogue.program sampleForgetting
    let final := forgotten.reach sampleCatalogue.program (.work 0 none :: sampleReading)
    Settled sampleCatalogue sampleChanged (sampleForgetting ++ .work 0 none :: sampleReading) .user
        (utf8 "1") (utf8 "new") ∧
      sampleChanged.workers.length = 1 ∧
      forgotten.workers[1]? =
        some ⟨.forget .user sampleContext (utf8 "1"), .done (.ok ())⟩ ∧
      forgotten.workers.length = 2 ∧
      final.workers[2]? =
        some ⟨.read .user sampleContext (utf8 "1"), .done (.ok (utf8 "old"))⟩ ∧
      (sampleCatalogue.codec .user).readBack (utf8 "new") = .ok (utf8 "new") := by
  refine ⟨settled_of_inits ?_ ?_ (by with_unfolding_all decide), ?_, ?_, ?_, ?_, ?_⟩
  · simp [sampleForgetting, sampleReading, Crowd.Move.Spares]
  · simp [sampleForgetting, sampleReading, Crowd.Move.Faultless]
  all_goals with_unfolding_all rfl

end EntityCache

end TimedCache
