import TimedCache.Proofs.Deployment.Alone
import TimedCache.Proofs.Registry
import TimedCache.Proofs.Remote.Conversation

/-!
# Reading along chains

A chain of names is read up to its **first hit**: a position at which a registered backend gives a value
when it is asked, after every registered backend in front of it was asked and has failed, be it for want
of the key or for any other reason (`Registry.FirstHit`).

**The first hit is the result**, and without one the key is not found.  Up to the first hit, or to the end
of the chain, the backend of every registered name is asked, as often as it is named and in order; beyond
it nobody is asked.  All this is so in any surroundings, and the same backend may answer differently each
time (`Registry.reads_along`).

**Nothing is written** by reading: in the process entries may only disappear, and a server is sent
nothing but lookups (`Deployment.OnlyLooksUp`).

## Main Definitions

* `Registry.lookups` — what is asked for a chain of names
* `Registry.FirstHit` — where a chain has the key
* `Registry.ReadsAlong` — what reading along a chain does
* `Deployment.OnlyLooksUp` — a change by which nothing is written
-/

namespace TimedCache

/-! ### What lookups leave -/

namespace Remote

/-- Between two states of a wire nothing but lookups was sent. -/
def Wire.SendsLookups (before after : Wire) : Prop :=
  ∃ lookups, after.sent = before.sent ++ lookups ∧ ∀ command ∈ lookups, ∃ full, command = .get full

theorem Wire.SendsLookups.refl (wire : Wire) : SendsLookups wire wire :=
  ⟨[], (List.append_nil _).symm, List.forall_mem_nil _⟩

theorem Wire.SendsLookups.trans {before wire after : Wire} (first : SendsLookups before wire)
    (second : SendsLookups wire after) : SendsLookups before after := by
  obtain ⟨earlier, sent, gets⟩ := first
  obtain ⟨later, sent', gets'⟩ := second
  exact ⟨earlier ++ later, by rw [sent', sent, List.append_assoc],
    List.forall_mem_append.mpr ⟨gets, gets'⟩⟩

/-- A lookup is sent, or withheld. -/
theorem Wire.sendsLookups_send (wire : Wire) (full : Bytes) :
    SendsLookups wire (wire.send (.get full)).2 := by
  have sent : ∀ ahead, SendsLookups wire ⟨wire.sent ++ [.get full], ahead⟩ := fun _ =>
    ⟨[.get full], rfl, List.forall_mem_singleton.mpr ⟨full, rfl⟩⟩
  unfold send
  split
  next => exact sent _
  next => exact sent _
  next => exact sent _
  next => exact .refl wire

/-- Behind one command, the wire is as it was left by the exchange. -/
theorem Client.one_wire {α β : Type} (client : Client) (read : Reply → Option α)
    (command : Command) (onReply : α → Except CacheError β × Ledger) (wire : Wire) :
    (client.one read command onReply wire).2.2 = (wire.query read command).2 := by
  unfold one
  cases wire.query read command with
  | mk said wire => cases said <;> rfl

theorem Client.sendsLookups_get (client : Client) (standing : Standing) (wire : Wire) (key : Bytes) :
    wire.SendsLookups (client.perform standing wire (.get key)).2.2 := by
  unfold perform
  rw [show withoutCommand? (.get key) = none from rfl]
  dsimp only
  cases client.refusal? standing with
  | some failure => exact .refl wire
  | none =>
      unfold carryOut
      dsimp only
      rw [one_wire, Wire.query_snd]
      exact wire.sendsLookups_send _

end Remote

namespace Engine

theorem sendsLookups_get (engine : Engine) (now : Nat) (standing : Standing) (wire : Remote.Wire)
    (key : Bytes) : wire.SendsLookups (engine.perform now standing wire (.get key)).2.2 := by
  cases engine with
  | inProcess store sweeper => exact .refl wire
  | onServer client => exact client.sendsLookups_get standing wire key

end Engine

namespace Deployment

/-- **Nothing was written** between two deployments: the stores in the process hold nothing that they did
not hold before, and a server was sent nothing but lookups. -/
structure OnlyLooksUp (before after : Deployment) : Prop where
  stores : ∀ {backend store}, before.store? backend = some store →
    ∃ left, after.store? backend = some left ∧ store.OnlyRemoves left
  sent : before.wire.SendsLookups after.wire

namespace OnlyLooksUp

variable {before deployment after : Deployment}

theorem refl (deployment : Deployment) : OnlyLooksUp deployment deployment where
  stores := fun here => ⟨_, here, .refl _⟩
  sent := .refl _

theorem trans (first : OnlyLooksUp before deployment) (second : OnlyLooksUp deployment after) :
    OnlyLooksUp before after where
  stores := by
    intro backend store here
    obtain ⟨middle, there, removes⟩ := first.stores here
    obtain ⟨left, after, more⟩ := second.stores there
    exact ⟨left, after, removes.trans more⟩
  sent := first.sent.trans second.sent

end OnlyLooksUp

/-- **A lookup** writes nothing. -/
theorem onlyLooksUp_get (deployment : Deployment) (backend : Nat) (context : Context) (key : Bytes) :
    OnlyLooksUp deployment (deployment.perform backend context (.get key)).2 where
  stores := by
    intro other store here
    by_cases same : backend = other
    · subst same
      obtain ⟨-, left, -⟩ := store?_perform here context (.get key)
      have reads : (Operation.get key).puts = false := rfl
      exact ⟨_, left, store.perform_onlyRemoves _ _ reads⟩
    · exact ⟨store, (store?_perform_of_ne same context (.get key)).trans here, .refl store⟩
  sent := by
    cases engine : deployment.engines[backend]? with
    | none =>
        rw [perform, engine]
        exact .refl deployment.wire
    | some behind =>
        obtain ⟨-, -, wired⟩ := perform_of_engine engine context (.get key)
        rw [wired]
        exact behind.sendsLookups_get _ _ _ key

end Deployment

/-! ### Chains -/

namespace Registry

/-- The backends of the registered names, each as often as it is named and in order. -/
def registered (registry : Registry) (names : List Bytes) : List Backend :=
  names.filterMap registry.backends.find?

/-- What is asked when a key is looked up behind all names that are registered. -/
def lookups (registry : Registry) (context : Context) (key : Bytes) (names : List Bytes) : List Call :=
  (registry.registered names).map fun backend => .perform backend.id context (.get key)

variable {registry : Registry} {context : Context} {key name other value : Bytes}
  {names before before' after after' : List Bytes} {backend : Backend}

theorem lookups_append (registry : Registry) (context : Context) (key : Bytes)
    (names others : List Bytes) :
    registry.lookups context key (names ++ others) =
      registry.lookups context key names ++ registry.lookups context key others := by
  rw [lookups, registered, List.filterMap_append, List.map_append]
  rfl

theorem lookups_of_registered (found : registry.backends.find? name = some backend) :
    registry.lookups context key [name] = [.perform backend.id context (.get key)] := by
  rw [lookups, registered, List.filterMap_cons_some found]
  rfl

theorem lookups_of_unregistered (missing : registry.backends.find? name = none) :
    registry.lookups context key [name] = [] := by
  rw [lookups, registered, List.filterMap_cons_none missing]
  rfl

theorem getThrough_of_unregistered (missing : registry.backends.find? name = none)
    (names : List Bytes) :
    registry.getThrough context key (name :: names) = registry.getThrough context key names := by
  rw [getThrough, find, missing]

section Surroundings

variable {σ : Type} {answer : (call : Call) → σ → call.Answer × σ} {s : σ}

/-- What is answered when a key is looked up behind a name, if the name is registered. -/
def lookup? (registry : Registry) (context : Context) (key : Bytes)
    (answer : (call : Call) → σ → call.Answer × σ) (name : Bytes) (s : σ) :
    Option (Except CacheError Bytes) :=
  (registry.backends.find? name).map fun backend =>
    (answer (.perform backend.id context (.get key)) s).1

/-- A name misses a key: the lookup behind it fails, if the name is registered. -/
def Misses (registry : Registry) (context : Context) (key : Bytes)
    (answer : (call : Call) → σ → call.Answer × σ) (name : Bytes) (s : σ) : Prop :=
  ∀ answered, registry.lookup? context key answer name s = some answered →
    ∃ failure, answered = .error failure

/-- **All names miss a key**, each of them after the lookups behind those in front of it. -/
def AllMiss (registry : Registry) (context : Context) (key : Bytes)
    (answer : (call : Call) → σ → call.Answer × σ) (names : List Bytes) (s : σ) : Prop :=
  ∀ before name after, names = before ++ name :: after →
    registry.Misses context key answer name
      (Call.askAll answer (registry.lookups context key before) s)

/-- **The first hit**: all names in front miss the key, and after these lookups it is found behind this
name. -/
structure FirstHit (registry : Registry) (context : Context) (key : Bytes)
    (answer : (call : Call) → σ → call.Answer × σ) (s : σ) (before : List Bytes)
    (name value : Bytes) : Prop where
  miss : registry.AllMiss context key answer before s
  hit : registry.lookup? context key answer name
    (Call.askAll answer (registry.lookups context key before) s) = some (.ok value)

theorem allMiss_nil : registry.AllMiss context key answer [] s :=
  fun _ _ _ split => absurd split.symm
    (List.append_ne_nil_of_right_ne_nil _ (List.cons_ne_nil _ _))

/-- One more name in front. -/
theorem AllMiss.cons (first : registry.Misses context key answer name s)
    (rest : registry.AllMiss context key answer names
      (Call.askAll answer (registry.lookups context key [name]) s)) :
    registry.AllMiss context key answer (name :: names) s := by
  rintro (_ | ⟨_, before⟩) other after split
  · cases split
    exact first
  · cases split
    have missed := rest before other after rfl
    rw [← Call.askAll_append, ← lookups_append] at missed
    exact missed

theorem FirstHit.cons (first : registry.Misses context key answer other s)
    (rest : registry.FirstHit context key answer
      (Call.askAll answer (registry.lookups context key [other]) s) before name value) :
    registry.FirstHit context key answer s (other :: before) name value where
  miss := rest.miss.cons first
  hit := by
    rw [← List.singleton_append, lookups_append, Call.askAll_append]
    exact rest.hit

/-- Where all names miss the key, there is no hit. -/
theorem AllMiss.no_hit (miss : registry.AllMiss context key answer names s)
    (split : names = before ++ name :: after)
    (hit : registry.FirstHit context key answer s before name value) : False := by
  obtain ⟨failure, failed⟩ := miss before name after split (.ok value) hit.hit
  cases failed

/-- Behind the first hit, there is no other one. -/
theorem FirstHit.eq_of_append {middle : List Bytes} {name' value' : Bytes}
    (hit : registry.FirstHit context key answer s before name value)
    (hit' : registry.FirstHit context key answer s (before ++ middle) name' value')
    (split : name :: after = middle ++ name' :: after') :
    middle = [] ∧ name = name' ∧ value = value' := by
  cases middle with
  | nil =>
      cases split
      rw [List.append_nil] at hit'
      cases hit.hit.symm.trans hit'.hit
      exact ⟨rfl, rfl, rfl⟩
  | cons first middle =>
      cases split
      exact (hit'.miss.no_hit rfl hit).elim

/-- **There is at most one first hit.** -/
theorem FirstHit.unique {name' value' : Bytes}
    (same : before ++ name :: after = before' ++ name' :: after')
    (hit : registry.FirstHit context key answer s before name value)
    (hit' : registry.FirstHit context key answer s before' name' value') :
    before = before' ∧ name = name' ∧ value = value' := by
  -- One of the two positions is not in front of the other.
  obtain ⟨middle, rfl, split⟩ | ⟨middle, rfl, split⟩ := List.append_eq_append_iff.mp same
  · obtain ⟨rfl, rfl, rfl⟩ := hit.eq_of_append hit' split
    exact ⟨(List.append_nil before).symm, rfl, rfl⟩
  · obtain ⟨rfl, rfl, rfl⟩ := hit'.eq_of_append hit split
    exact ⟨List.append_nil before', rfl, rfl⟩

/-! ### Reading -/

/-- **Where reading along a chain ends**, with its result and what it has asked: at the first hit, or at
the end of the chain. -/
inductive Ends (registry : Registry) (context : Context) (key : Bytes)
    (answer : (call : Call) → σ → call.Answer × σ) (s : σ) :
    List Bytes → Except CacheError Bytes → List Call → Prop
  | hit {before after : List Bytes} {name value : Bytes}
      (hit : registry.FirstHit context key answer s before name value) :
      Ends registry context key answer s (before ++ name :: after) (.ok value)
        (registry.lookups context key (before ++ [name]))
  | miss {names : List Bytes} (miss : registry.AllMiss context key answer names s) :
      Ends registry context key answer s names (.error (.notFound key))
        (registry.lookups context key names)

/-- A name whose lookup fails, or that is not registered, is passed over. -/
theorem Ends.cons {result : Except CacheError Bytes} {calls : List Call}
    (first : registry.Misses context key answer name s)
    (rest : registry.Ends context key answer
      (Call.askAll answer (registry.lookups context key [name]) s) names result calls) :
    registry.Ends context key answer s (name :: names) result
      (registry.lookups context key [name] ++ calls) := by
  cases rest with
  | hit hit =>
      rw [← lookups_append]
      exact .hit (hit.cons first)
  | miss miss =>
      rw [← lookups_append]
      exact .miss (miss.cons first)

/-- **Reading along a chain** ends at the first hit or at the end of the chain. -/
theorem getThrough_ends (registry : Registry) (context : Context) (key : Bytes) (names : List Bytes)
    (answer : (call : Call) → σ → call.Answer × σ) (worker : Nat) (clock : σ → Nat) (s : σ) :
    registry.Ends context key answer s names
      ((registry.getThrough context key names).run answer s).1
      (((registry.getThrough context key names).notes worker clock answer s).map Note.call) := by
  induction names generalizing s with
  | nil => exact .miss allMiss_nil
  | cons name names ih =>
      have rest := ih (Call.askAll answer (registry.lookups context key [name]) s)
      cases found : registry.backends.find? name with
      | none =>
          have unasked : registry.lookup? context key answer name s = none := by
            rw [lookup?, found, Option.map_none]
          have passed := rest.cons fun answered asked => nomatch unasked.symm.trans asked
          rw [lookups_of_unregistered found] at passed
          rw [getThrough_of_unregistered found]
          exact passed
      | some backend =>
          -- What the name's own lookup gives decides whether the rest is read at all.
          have asked : registry.lookup? context key answer name s =
              some (answer (.perform backend.id context (.get key)) s).1 := by
            rw [lookup?, found, Option.map_some]
          rw [getThrough_cons registry context key (find_eq_ok_iff.mpr found)]
          simp only [Program.run, Program.notes, List.map_cons]
          cases given : (answer (.perform backend.id context (.get key)) s).1 with
          | ok value =>
              rw [given] at asked
              have here : registry.FirstHit context key answer s [] name value := ⟨allMiss_nil, asked⟩
              have ends : registry.Ends context key answer s (name :: names) (.ok value)
                  (registry.lookups context key [name]) := .hit here
              rw [lookups_of_registered found] at ends
              exact ends
          | error failure =>
              rw [given] at asked
              have passed := rest.cons fun answered other =>
                ⟨failure, Option.some.inj (other.symm.trans asked)⟩
              rw [lookups_of_registered found] at passed
              exact passed

variable {result : Except CacheError Bytes} {calls : List Call}

/-- The first hit is the result, and up to there everybody is asked. -/
theorem Ends.of_hit (ends : registry.Ends context key answer s names result calls)
    (split : names = before ++ name :: after)
    (hit : registry.FirstHit context key answer s before name value) :
    result = .ok value ∧ calls = registry.lookups context key (before ++ [name]) := by
  cases ends with
  | hit hit' =>
      obtain ⟨rfl, rfl, rfl⟩ := hit'.unique split hit
      exact ⟨rfl, rfl⟩
  | miss miss => exact (miss.no_hit split hit).elim

theorem Ends.ok_iff (ends : registry.Ends context key answer s names result calls) :
    result = .ok value ↔ ∃ before name after, names = before ++ name :: after ∧
      registry.FirstHit context key answer s before name value := by
  constructor
  · rintro rfl
    cases ends with
    | hit hit => exact ⟨_, _, _, rfl, hit⟩
  · rintro ⟨before, name, after, split, hit⟩
    exact (ends.of_hit split hit).1

/-- Without a hit, everybody is asked, and the key is not found. -/
theorem Ends.of_no_hit (ends : registry.Ends context key answer s names result calls)
    (none_ : ¬∃ before name after value, names = before ++ name :: after ∧
      registry.FirstHit context key answer s before name value) :
    result = .error (.notFound key) ∧ calls = registry.lookups context key names := by
  cases ends with
  | hit hit => exact absurd ⟨_, _, _, _, rfl, hit⟩ none_
  | miss miss => exact ⟨rfl, rfl⟩

/-- Nothing but lookups is asked. -/
theorem Ends.exists_backend (ends : registry.Ends context key answer s names result calls) :
    ∀ call ∈ calls, ∃ backend, call = .perform backend context (.get key) := by
  have lookups (asked : List Bytes) : ∀ call ∈ registry.lookups context key asked,
      ∃ backend, call = .perform backend context (.get key) := by
    intro call mem
    obtain ⟨backend, -, rfl⟩ := List.mem_map.mp mem
    exact ⟨backend.id, rfl⟩
  cases ends with
  | hit hit => exact lookups _
  | miss miss => exact lookups _

end Surroundings

/-- **What reading along a chain does**, in any surroundings. -/
structure ReadsAlong (registry : Registry) (context : Context) (key : Bytes) (names : List Bytes) :
    Prop where
  /-- The result is a value exactly if it is that of the first hit. -/
  ok_iff : ∀ {σ : Type} (answer : (call : Call) → σ → call.Answer × σ) (s : σ) (value : Bytes),
    ((registry.getThrough context key names).run answer s).1 = .ok value ↔
      ∃ before name after, names = before ++ name :: after ∧
        registry.FirstHit context key answer s before name value
  /-- Then the backend of every registered name up to there is asked, as often as it is named and in order,
  and nobody else is. -/
  asked : ∀ {σ : Type} (answer : (call : Call) → σ → call.Answer × σ) (worker : Nat)
    (clock : σ → Nat) (s : σ) {before : List Bytes} {name : Bytes} {after : List Bytes} {value : Bytes},
    names = before ++ name :: after → registry.FirstHit context key answer s before name value →
      ((registry.getThrough context key names).notes worker clock answer s).map Note.call =
        registry.lookups context key (before ++ [name])
  /-- Without a hit, the backends of all registered names are asked, and the key is not found. -/
  exhausted : ∀ {σ : Type} (answer : (call : Call) → σ → call.Answer × σ) (worker : Nat)
    (clock : σ → Nat) (s : σ), (¬∃ before name after value, names = before ++ name :: after ∧
      registry.FirstHit context key answer s before name value) →
      ((registry.getThrough context key names).run answer s).1 = .error (.notFound key) ∧
        ((registry.getThrough context key names).notes worker clock answer s).map Note.call =
          registry.lookups context key names
  /-- A backend that is registered only beyond the first hit remains as it is. -/
  untouched : ∀ {deployment : Deployment} {before : List Bytes} {name : Bytes} {after : List Bytes}
    {value : Bytes}, names = before ++ name :: after →
      registry.FirstHit context key Deployment.answer deployment before name value →
      ∀ backend, (∀ asked ∈ registry.registered (before ++ [name]), asked.id ≠ backend) →
        (deployment.run (registry.getThrough context key names)).2.engines[backend]? =
          deployment.engines[backend]?
  /-- Nothing is written to any backend. -/
  onlyLooksUp : ∀ deployment : Deployment,
    deployment.OnlyLooksUp (deployment.run (registry.getThrough context key names)).2

/-- **Reading along any chain** of any registry returns the first hit, and touches nothing beyond it. -/
theorem reads_along (registry : Registry) (context : Context) (key : Bytes) (names : List Bytes) :
    registry.ReadsAlong context key names := by
  have ends {σ : Type} (answer : (call : Call) → σ → call.Answer × σ) (worker : Nat)
      (clock : σ → Nat) (s : σ) :=
    registry.getThrough_ends context key names answer worker clock s
  refine ⟨fun answer s value => (ends answer 0 (fun _ => 0) s).ok_iff,
    fun answer worker clock s => fun split hit => ((ends answer worker clock s).of_hit split hit).2,
    fun answer worker clock s => (ends answer worker clock s).of_no_hit, ?_, ?_⟩
  · intro deployment before name after value split hit backend beyond
    obtain ⟨-, asked⟩ := (ends Deployment.answer 0 (fun _ => 0) deployment).of_hit split hit
    rw [Deployment.run, Program.run_snd_eq_askAll 0 fun _ => 0, asked]
    refine Call.askAll_keeps (P := fun reached : Deployment =>
      reached.engines[backend]? = deployment.engines[backend]?) (fun call mem reached same => ?_) rfl
    obtain ⟨other, there, rfl⟩ := List.mem_map.mp mem
    exact (Deployment.engines_perform_of_ne (beyond other there) context (.get key)).trans same
  · intro deployment
    have asks := (ends Deployment.answer 0 (fun _ => 0) deployment).exists_backend
    rw [Deployment.run, Program.run_snd_eq_askAll 0 fun _ => 0]
    refine Call.askAll_keeps (P := deployment.OnlyLooksUp) (fun call mem reached before => ?_)
      (.refl deployment)
    obtain ⟨backend, rfl⟩ := asks call mem
    exact before.trans (reached.onlyLooksUp_get backend context key)

/-- A name that is not registered, a backend that is closed, and one without the key are passed over. -/
example :
    let shut := (Deployment.start 0).addLocal .standard Sweeper.standardInterval
    let bare := (shut.2.perform shut.1.id .background .close).2.addLocal .standard Sweeper.standardInterval
    let stocked := bare.2.addLocal .standard Sweeper.standardInterval
    let deployment := (stocked.2.perform stocked.1.id .background (.set (utf8 "k") (utf8 "v") .zero)).2
    let registry := (((empty .standard).register (utf8 "a") shut.1).register (utf8 "b") bare.1).register
      (utf8 "c") stocked.1
    (deployment.run (registry.getThrough .background (utf8 "k")
      [utf8 "x", utf8 "a", utf8 "b", utf8 "c", utf8 "a"])).1 = .ok (utf8 "v") := by
  with_unfolding_all rfl

end Registry

end TimedCache
