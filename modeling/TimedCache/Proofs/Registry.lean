import TimedCache.Registry
import TimedCache.Proofs.Attempt
import TimedCache.Proofs.Deployment.Interlude
import TimedCache.Proofs.Lifetime

/-!
# Writing and reading through chains

A write goes to every backend of a chain, a read stops at the first one that has the key.  The two
chains are independent of each other, and several names may stand for one backend.  **What is written is
read** nevertheless (`Registry.writeThrough_coherent`).

**Every backend that took the value keeps it** until its expiry, whatever became of the write at the
other backends.  If it took it more than once, under several names, then it keeps it at least as long as
after the first time.

**If the write has succeeded**, all names are registered, and all their backends took the value.  So
whichever of the names a read begins with, it finds the value there, and no old one.

All this is amid incidents, before and between the questions of the write as well as of the read, that
leave the key alone in these backends.  Other backends, the registered ones among them, may be of any
kind and do anything.

## Main Definitions

* `Registry.Offers` — the backends behind a chain of names
* `Note.EndsAfter` — what was written has not ended
* `Registry.Coherent` — what a write guarantees to later reads
-/

namespace TimedCache

/-- What a note says was written has not ended at `now`, if it ends at all. -/
def Note.EndsAfter (lifetime : Option Duration) (now : Nat) (note : Note) : Prop :=
  ∀ span, lifetime = some span → now < Entry.expiry note.wall span

namespace Registry

variable {registry : Registry} {names chain : List Bytes} {name key value : Bytes} {ttl : Duration}
  {backend : Backend} {context : Context}

/-- Some of the names stands for a backend. -/
def Offers (registry : Registry) (names : List Bytes) (backend : Backend) : Prop :=
  ∃ name ∈ names, registry.find name = .ok backend

/-- Incidents that leave a key alone in all backends behind some names. -/
def Leaves (registry : Registry) (names : List Bytes) (key : Bytes) (gaps : List (List Incident)) :
    Prop :=
  ∀ gap ∈ gaps, ∀ incident ∈ gap, ∀ backend, registry.Offers names backend →
    incident.Leaves backend.id key

/-! ### Writes -/

/-- What a write asks for. -/
def Writes (registry : Registry) (names : List Bytes) (key value : Bytes) (ttl : Duration)
    (call : Call) : Prop :=
  ∃ backend context, registry.Offers names backend ∧
    call = .perform backend.id context (.set key value ttl)

theorem writeThrough_writes (registry : Registry) (context : Context) (names : List Bytes)
    (key value : Bytes) (ttl : Duration) :
    (registry.writeThrough context names key value ttl).Always
      (registry.Writes names key value ttl) fun _ => True := by
  refine (Program.sequence_always fun part mem => ?_).bind fun results _ => trivial
  obtain ⟨name, named, rfl⟩ := List.mem_map.mp mem
  cases found : registry.find name with
  | error failure => trivial
  | ok backend => exact ⟨⟨backend, context, ⟨name, named, found⟩, rfl⟩, fun _ => trivial⟩

/-- **A write that has succeeded** was answered by the backend of every name. -/
theorem stored_of_writeThrough {notes : List Note}
    (walks : (registry.writeThrough context names key value ttl).Walks notes (.done (.ok ())))
    (mem : name ∈ names) :
    ∃ backend, registry.find name = .ok backend ∧
      ∃ note ∈ notes, note.stored? backend.id = some (key, value, ttl) := by
  obtain ⟨own, sub, walked⟩ := Program.walks_of_attemptAll walks (List.mem_map_of_mem mem)
  cases found : registry.find name with
  | error failure =>
      rw [found] at walked
      cases walked
  | ok backend =>
      rw [found] at walked
      cases walked with
      | @step worker wall _ answer _ _ _ walked =>
          cases walked
          exact ⟨backend, rfl, _, sub List.mem_cons_self, if_pos rfl⟩

/-! ### What a backend keeps -/

/-- **What a backend shows during a write**: once it has taken the value, the value as of the last time,
and that is no earlier than any other time. -/
structure Keeping (backend : Backend) (key value : Bytes) (ttl : Duration) (deployment : Deployment)
    (log : List Note) : Prop where
  past : ∀ note ∈ log, note.wall ≤ deployment.wall
  shows : ∃ shown, deployment.Shows backend key shown ∧
    ∀ note ∈ log, note.stored? backend.id = some (key, value, ttl) →
      ∃ wall, note.wall ≤ wall ∧
        shown = some (.write wall value (backend.options.lifetime ttl))

theorem keeping_start {deployment : Deployment} {store : Store}
    (serves : deployment.Serves backend store) (key value : Bytes) (ttl : Duration) :
    Keeping backend key value ttl deployment [] where
  past := List.forall_mem_nil _
  shows := by
    refine ⟨store.live? deployment.wall key, ⟨store, serves, ?_⟩, List.forall_mem_nil _⟩
    exact (Entry.filter_later (Nat.le_refl _) _).symm

variable {deployment : Deployment} {log : List Note}

theorem Keeping.happen (keeping : Keeping backend key value ttl deployment log)
    {incident : Incident} (leaves : incident.Leaves backend.id key) :
    Keeping backend key value ttl (deployment.happen incident) log where
  past := fun note mem =>
    Nat.le_trans (keeping.past note mem) (deployment.wall_le_happen incident)
  shows := by
    obtain ⟨shown, shows, taken⟩ := keeping.shows
    exact ⟨shown, shows.happen leaves, taken⟩

/-- A question of the write, to this backend or to another one. -/
theorem Keeping.ask (keeping : Keeping backend key value ttl deployment log) {call : Call}
    (writes : registry.Writes names key value ttl call) :
    Keeping backend key value ttl (Deployment.answer call deployment).2
      (log ++ [⟨0, deployment.wall, call, (Deployment.answer call deployment).1⟩]) := by
  obtain ⟨other, context, -, rfl⟩ := writes
  have wall := deployment.wall_perform other.id context (.set key value ttl)
  refine ⟨fun note mem => ?_, ?_⟩
  · show note.wall ≤ (deployment.perform other.id context (.set key value ttl)).2.wall
    rw [wall]
    obtain old | new := List.mem_append.mp mem
    · exact keeping.past note old
    · rw [List.mem_singleton.mp new]
  · obtain ⟨shown, shows, taken⟩ := keeping.shows
    simp only [List.forall_mem_append, List.forall_mem_singleton]
    by_cases same : other.id = backend.id
    · rw [same]
      obtain ⟨failure, refused, unchanged⟩ | ⟨done, written⟩ :=
        shows.perform_set_cases context value ttl
      · refine ⟨shown, unchanged, taken, fun stored => ?_⟩
        have answered : (Deployment.answer (.perform backend.id context (.set key value ttl))
          deployment).1 = .error failure := refused
        rw [answered] at stored
        cases stored
      · exact ⟨_, written, fun note mem _ => ⟨deployment.wall, keeping.past note mem, rfl⟩,
          fun _ => ⟨deployment.wall, Nat.le_refl _, rfl⟩⟩
    · refine ⟨shown, shows.perform context fun here => absurd here same, taken, fun stored => ?_⟩
      have spares : (Call.perform other.id context (.set key value ttl)).Spares backend.id :=
        fun here => absurd here same
      cases (stored?_of_spares (by exact spares)).symm.trans stored

/-- **What was taken is found** until it ends. -/
theorem Keeping.get (keeping : Keeping backend key value ttl deployment log) {note : Note}
    (mem : note ∈ log) (stored : note.stored? backend.id = some (key, value, ttl))
    {incidents : List Incident} (leaves : ∀ incident ∈ incidents, incident.Leaves backend.id key)
    (live : (deployment.reach incidents).standing context = .live)
    (ahead : note.EndsAfter (backend.options.lifetime ttl) (deployment.reach incidents).wall) :
    ((deployment.reach incidents).perform backend.id context (.get key)).1 = .ok value := by
  obtain ⟨shown, shows, taken⟩ := keeping.shows
  obtain ⟨wall, le, rfl⟩ := taken note mem stored
  refine (shows.reach leaves).perform_get_of_unexpired ?_ live
  exact Entry.isExpired_write_of_ahead fun span lives =>
    Nat.lt_of_lt_of_le (ahead span lives) (Entry.expiry_mono le span)

/-! ### Coherence -/

/-- The backend of a name is what is registered under it. -/
theorem find_eq_ok_iff : registry.find name = .ok backend ↔
    registry.backends.find? name = some backend := by
  unfold find
  cases registry.backends.find? name with
  | none => exact ⟨nofun, nofun⟩
  | some other => rw [Option.some.injEq, Except.ok.injEq]

theorem getThrough_cons (registry : Registry) (context : Context) (key : Bytes)
    (found : registry.find name = .ok backend) (names : List Bytes) :
    registry.getThrough context key (name :: names) =
      .ask (.perform backend.id context (.get key)) fun
        | .ok value => .done (.ok value)
        | .error _ => registry.getThrough context key names := by
  rw [getThrough, found]
  refine congrArg (Program.ask _) (funext fun answer => ?_)
  cases answer <;> rfl

/-- **What a write guarantees** to reads that come later, amid incidents that leave the key alone, under
contexts that may go on when the read begins. -/
structure Coherent (registry : Registry) (names : List Bytes) (key value : Bytes) (ttl : Duration)
    (written : Passage (Except CacheError Unit)) : Prop where
  /-- Every backend that took the value gives it until it ends. -/
  kept : ∀ {backend note gaps context}, registry.Offers names backend → note ∈ written.notes →
    note.stored? backend.id = some (key, value, ttl) →
    (∀ gap ∈ gaps, ∀ incident ∈ gap, incident.Leaves backend.id key) →
    let asked := written.deployment.reach (gaps.headD [])
    asked.standing context = .live → note.EndsAfter (backend.options.lifetime ttl) asked.wall →
    (Deployment.runAmid gaps (.perform backend.id context (.get key)) written.deployment).result =
      .ok value
  /-- If the write has succeeded, the backends of all names took the value. -/
  complete : written.result = .ok () → ∀ name ∈ names, ∃ backend,
    registry.find name = .ok backend ∧
      ∃ note ∈ written.notes, note.stored? backend.id = some (key, value, ttl)
  /-- Then every chain of such names gives it, until it ends in one of the backends of the chain. -/
  read : written.result = .ok () → ∀ {chain gaps context}, chain ≠ [] → chain ⊆ names →
    registry.Leaves chain key gaps →
    let asked := written.deployment.reach (gaps.headD [])
    asked.standing context = .live →
    (∀ backend, registry.Offers chain backend → ∀ note ∈ written.notes,
      note.stored? backend.id = some (key, value, ttl) →
        note.EndsAfter (backend.options.lifetime ttl) asked.wall) →
    (Deployment.runAmid gaps (registry.getThrough context key chain) written.deployment).result =
      .ok value

/-- **What is written is read.** -/
theorem writeThrough_coherent (registry : Registry) (names : List Bytes)
    (serves : ∀ backend, registry.Offers names backend → ∃ store, deployment.Serves backend store)
    (context : Context) (key value : Bytes) (ttl : Duration) {gaps : List (List Incident)}
    (leaves : registry.Leaves names key gaps) :
    registry.Coherent names key value ttl
      (Deployment.runAmid gaps (registry.writeThrough context names key value ttl) deployment) := by
  have writes := registry.writeThrough_writes context names key value ttl
  have walks := Deployment.walks_runAmid gaps (registry.writeThrough context names key value ttl)
    deployment
  generalize written : Deployment.runAmid gaps
    (registry.writeThrough context names key value ttl) deployment = passage at walks ⊢
  have keeping {backend : Backend} (offers : registry.Offers names backend) :
      Keeping backend key value ttl passage.deployment passage.notes := by
    obtain ⟨store, serves⟩ := serves backend offers
    have kept := Deployment.runAmid_keeps writes (P := Keeping backend key value ttl)
      (fun gap mem incident mem' {_ _} keeping =>
        keeping.happen (leaves gap mem incident mem' backend offers))
      (fun writes keeping => keeping.ask writes) (keeping_start serves key value ttl)
    rw [written] at kept
    exact kept
  have complete (succeeds : passage.result = .ok ()) : ∀ name ∈ names, ∃ backend,
      registry.find name = .ok backend ∧
        ∃ note ∈ passage.notes, note.stored? backend.id = some (key, value, ttl) := by
    rw [succeeds] at walks
    exact fun name mem => stored_of_writeThrough walks mem
  refine ⟨?_, complete, ?_⟩
  · intro backend note gaps context offers mem stored leaves asked live ahead
    refine (keeping offers).get mem stored (fun incident mem => ?_) live ahead
    obtain ⟨gap, mem', mem⟩ := Deployment.exists_gap mem
    exact leaves gap mem' incident mem
  · intro succeeds chain gaps context nonempty sub leaves asked live ahead
    cases chain with
    | nil => exact absurd rfl nonempty
    | cons name chain =>
        obtain ⟨backend, found, note, mem, stored⟩ := complete succeeds name (sub List.mem_cons_self)
        have first : registry.Offers (name :: chain) backend := ⟨name, List.mem_cons_self, found⟩
        have spared : ∀ incident ∈ gaps.headD [], incident.Leaves backend.id key := by
          intro incident mem
          obtain ⟨gap, mem', mem⟩ := Deployment.exists_gap mem
          exact leaves gap mem' incident mem backend first
        have given : (Deployment.answer (.perform backend.id context (.get key)) asked).1 =
            .ok value :=
          (keeping ⟨name, sub List.mem_cons_self, found⟩).get mem stored spared live
            (ahead backend first note mem stored)
        rw [getThrough_cons registry context key found, Deployment.runAmid]
        dsimp only
        rw [given]
        rfl

/-- Two backends, of which the first lets its entries live for fifty milliseconds, and the second has an
old value. -/
def sampleBackends : Backend × Backend × Deployment :=
  let first := (Deployment.start 1700000000000).addLocal
    ⟨.ofMillis 50, 1000, utf8 "first:"⟩ Sweeper.standardInterval
  let second := first.2.addLocal .standard Sweeper.standardInterval
  (first.1, second.1,
    (second.2.perform second.1.id .background (.set (utf8 "k") (utf8 "old") .zero)).2)

/-- The first of them has two names. -/
def sampleRegistry : Registry :=
  (((empty .standard).register (utf8 "a") sampleBackends.1).register (utf8 "b")
    sampleBackends.1).register (utf8 "c") sampleBackends.2.1

/-- Between the first question and the second one some time passes, and another key is deleted. -/
def sampleGaps : List (List Incident) :=
  [[], [.advance (.ofMillis 10), .ask (.perform 0 .background (.delete (utf8 "other")))]]

/-- The write takes ten milliseconds, so the first backend takes the value twice.  A chain with both
backends gives it before the earlier expiry.  A write to a chain with an unknown name fails, and the
second backend takes the value all the same. -/
theorem writeThrough_coherent_sampleRegistry :
    let write (names : List Bytes) := Deployment.runAmid sampleGaps
      (sampleRegistry.writeThrough .background names (utf8 "k") (utf8 "new") .zero)
      sampleBackends.2.2
    let done := write [utf8 "a", utf8 "b", utf8 "c"]
    let failed := write [utf8 "a", utf8 "d", utf8 "c"]
    let pause : List (List Incident) := [[.advance (.ofMillis 39)]]
    (done.result = .ok () ∧
      (Deployment.runAmid pause (sampleRegistry.getThrough .background (utf8 "k")
        [utf8 "c", utf8 "a", utf8 "c"]) done.deployment).result = .ok (utf8 "new")) ∧
      failed.result = .error (unregistered (utf8 "d")) ∧
      (Deployment.runAmid pause (.perform sampleBackends.2.1.id .background (.get (utf8 "k")))
        failed.deployment).result = .ok (utf8 "new") := by
  intro write done failed pause
  have known : sampleRegistry.find (utf8 "a") = .ok sampleBackends.1 ∧
      sampleRegistry.find (utf8 "b") = .ok sampleBackends.1 ∧
      sampleRegistry.find (utf8 "c") = .ok sampleBackends.2.1 ∧
      sampleRegistry.find (utf8 "d") = .error (unregistered (utf8 "d")) := by
    refine ⟨?_, ?_, ?_, ?_⟩ <;> with_unfolding_all rfl
  obtain ⟨first, again, second, none_⟩ := known
  have either {names : List Bytes} (sub : names ⊆ [utf8 "a", utf8 "b", utf8 "c", utf8 "d"])
      {backend : Backend} : sampleRegistry.Offers names backend →
        backend = sampleBackends.1 ∨ backend = sampleBackends.2.1 := by
    rintro ⟨name, mem, found⟩
    have mem := sub mem
    simp only [List.mem_cons, List.not_mem_nil, or_false] at mem
    obtain rfl | rfl | rfl | rfl := mem
    · exact .inl (Except.ok.inj (found.symm.trans first))
    · exact .inl (Except.ok.inj (found.symm.trans again))
    · exact .inr (Except.ok.inj (found.symm.trans second))
    · cases found.symm.trans none_
  have serves : ∀ backend, backend = sampleBackends.1 ∨ backend = sampleBackends.2.1 →
      ∃ store, sampleBackends.2.2.Serves backend store := by
    rintro _ (rfl | rfl)
    · exact ⟨_, by with_unfolding_all rfl, by with_unfolding_all rfl, by with_unfolding_all rfl⟩
    · exact ⟨_, by with_unfolding_all rfl, by with_unfolding_all rfl, by with_unfolding_all rfl⟩
  have spared (names : List Bytes) : sampleRegistry.Leaves names (utf8 "k") sampleGaps := by
    refine List.forall_mem_cons.mpr ⟨List.forall_mem_nil _, List.forall_mem_singleton.mpr
      (List.forall_mem_cons.mpr ⟨fun _ _ => trivial, List.forall_mem_singleton.mpr ?_⟩)⟩
    exact fun _ _ _ => by decide
  have coherent (names : List Bytes) (sub : names ⊆ [utf8 "a", utf8 "b", utf8 "c", utf8 "d"]) :=
    sampleRegistry.writeThrough_coherent names (fun backend offers => serves backend (either sub offers))
      .background (utf8 "k") (utf8 "new") .zero (spared names)
  have succeeds : done.result = .ok () := by with_unfolding_all rfl
  -- Both backends outlast the pause, even for what was written first.
  have ahead : ∀ backend, backend = sampleBackends.1 ∨ backend = sampleBackends.2.1 →
      ∀ note : Note, 1700000000000 ≤ note.wall →
        note.EndsAfter (backend.options.lifetime .zero) 1700000000049 := by
    intro backend either note late span lives
    refine Nat.lt_of_lt_of_le ?_ (Entry.expiry_mono late span)
    obtain rfl | rfl := either
    · cases (show some (Duration.ofMillis 50) = some span from lives)
      decide
    · cases (show some (Duration.ofSecs 300) = some span from lives)
      decide
  have clock : (done.deployment.reach (pause.headD [])).wall = 1700000000049 ∧
      (failed.deployment.reach (pause.headD [])).wall = 1700000000049 := by decide +kernel
  have late : (∀ wall ∈ done.notes.map Note.wall, 1700000000000 ≤ wall) ∧
      ∀ wall ∈ failed.notes.map Note.wall, 1700000000000 ≤ wall := by decide +kernel
  refine ⟨⟨succeeds, ?_⟩, by with_unfolding_all rfl, ?_⟩
  · refine (coherent _ (by decide)).read succeeds (by decide) (by decide) ?_
      (by with_unfolding_all rfl) fun backend offers note mem _ => ?_
    · exact List.forall_mem_singleton.mpr (List.forall_mem_singleton.mpr fun _ _ => trivial)
    · exact clock.1.symm ▸ ahead backend (either (by decide) offers) note
        (late.1 note.wall (List.mem_map_of_mem mem))
  · have taken : failed.notes.any (fun note => decide (note.stored? sampleBackends.2.1.id =
        some (utf8 "k", utf8 "new", .zero))) = true := by decide +kernel
    obtain ⟨note, mem, stored⟩ := List.any_eq_true.mp taken
    refine (coherent _ (by decide)).kept ⟨utf8 "c", by decide, second⟩ mem (of_decide_eq_true stored)
      ?_ (by with_unfolding_all rfl) ?_
    · exact List.forall_mem_singleton.mpr (List.forall_mem_singleton.mpr trivial)
    · exact clock.2.symm ▸ ahead _ (.inr rfl) note (late.2 note.wall (List.mem_map_of_mem mem))

end Registry

end TimedCache
