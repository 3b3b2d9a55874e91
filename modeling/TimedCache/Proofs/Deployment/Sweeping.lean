import TimedCache.Proofs.Deployment.Interlude
import TimedCache.Proofs.Lifetime
import TimedCache.Proofs.Store.Interference

/-!
# Expired entries do not stay for long

A sweeper makes its first pass one interval after its backend was made, and then one pass every
interval.  So **an expired entry that nobody reads is reclaimed within one interval** of its expiry, and
what has not expired stays (`Deployment.reclaimed_in_time`).

**The invariant** ties the entries to the last pass (`Sweeper.InStep`): no entry expires before it, and
the next pass is due one interval after it.  A pass leaves only what expires later.  What is written
afterwards expires no sooner than it is written, however short its lifetime is, and a counter keeps the
expiry that it had.  If the clock moves far ahead, the passes that were due are made one after another,
until the next one lies ahead (`Sweeper.passes_inStep`).

**Whole milliseconds.**  The backend must be made at a whole millisecond.  Otherwise its first pass is
moved up to the next one, and an entry that is written at once may stay for one millisecond more.
-/

namespace TimedCache

/-! ### Expiries -/

namespace Store

/-- No entry expires before a moment. -/
def ExpiresFrom (moment : Nat) (store : Store) : Prop :=
  ∀ full entry expires, store.entries.find? full = some entry → entry.expiresAt = some expires →
    moment ≤ expires

variable {moment now : Nat} {store after : Store}

theorem expiresFrom_of_empty (empty : store.entries = .empty) : store.ExpiresFrom moment := by
  intro full entry expires found
  rw [empty] at found
  cases found

theorem ExpiresFrom.onlyRemoves (kept : store.ExpiresFrom moment) (removes : OnlyRemoves store after) :
    after.ExpiresFrom moment :=
  fun full entry expires found => kept full entry expires (removes.sub found)

theorem ExpiresFrom.insert (kept : store.ExpiresFrom moment) (full : Bytes) {entry : Entry}
    (ends : ∀ expires, entry.expiresAt = some expires → moment ≤ expires) (ledger : Ledger) :
    ExpiresFrom moment { store with entries := store.entries.insert full entry, ledger } := by
  intro other found expires there
  rw [Table.find?_insert] at there
  split at there
  · cases there
    exact ends expires
  · exact kept other found expires there

/-- What is written expires no sooner than now: an expiry beyond the last representable time is moved
there, and the clock has not come to it. -/
theorem le_expiry (early : now < word64) (lifetime : Duration) : now ≤ Entry.expiry now lifetime := by
  rw [Duration.expiry_eq_min]
  omega

theorem ExpiresFrom.write (kept : store.ExpiresFrom moment) (le : moment ≤ now)
    (early : now < word64) (key value : Bytes) (ttl : Duration) :
    (store.write now key value ttl).ExpiresFrom moment := by
  refine kept.insert (store.options.fullKey key) (fun expires ends => ?_) _
  obtain ⟨lifetime, -, rfl⟩ := Option.map_eq_some_iff.mp ends
  exact Nat.le_trans le (le_expiry early lifetime)

/-- Counting keeps the expiry of what was there, and a counter that begins has none. -/
theorem ExpiresFrom.add (kept : store.ExpiresFrom moment) (now : Nat) (key : Bytes) (delta : Int) :
    (store.add now key delta).2.ExpiresFrom moment := by
  unfold Store.add
  dsimp only
  split
  · exact kept
  · split
    · refine kept.insert (store.options.fullKey key) (fun expires ends => ?_) store.ledger
      cases live : store.live? now key with
      | none =>
          rw [live] at ends
          cases ends
      | some entry =>
          rw [live] at ends
          exact kept _ entry expires (Option.filter_eq_some_iff.mp live).1 ends
    · exact kept

theorem ExpiresFrom.writeMany (kept : store.ExpiresFrom moment) (le : moment ≤ now)
    (early : now < word64) (ttl : Duration) (pairs : List (Bytes × Bytes)) :
    (Store.writeMany now ttl pairs store).ExpiresFrom moment := by
  induction pairs generalizing store with
  | nil => exact kept
  | cons pair pairs ih => exact ih (kept.write le early pair.1 pair.2 ttl)

theorem ExpiresFrom.carryOut (kept : store.ExpiresFrom moment) (le : moment ≤ now)
    (early : now < word64) (op : Operation) : (store.carryOut now op).2.ExpiresFrom moment := by
  cases puts : op.puts with
  | false => exact kept.onlyRemoves (store.carryOut_onlyRemoves now puts)
  | true =>
      cases op with
      | set key value ttl => exact kept.write le early key value ttl
      | setIfAbsent key value ttl =>
          rw [carryOut_setIfAbsent]
          split
          · exact kept
          · exact kept.write le early key value ttl
      | setMany entries ttl => exact kept.writeMany le early ttl entries.pairs
      | increment key delta => exact kept.add now key delta
      | decrement key delta => exact kept.add now key (-delta)
      | get _ | delete _ | has _ | flush | invalidate _ | close | stats | getMany _ | remaining _ =>
          cases puts

/-- **No operation** puts anything into a store that expires before the moment. -/
theorem ExpiresFrom.perform (kept : store.ExpiresFrom moment) (le : moment ≤ now)
    (early : now < word64) (standing : Standing) (op : Operation) :
    (store.perform now standing op).2.ExpiresFrom moment := by
  unfold Store.perform
  split
  · split
    · exact kept
    · exact kept.carryOut le early op
  · exact kept.carryOut le early op

/-- **A sweep** leaves what is live. -/
theorem find?_sweep (store : Store) (now : Nat) (full : Bytes) :
    (store.sweep now).entries.find? full = store.entries.live? now full := by
  have remains := (@Table.reclaim_filter store.entries now _ fun _ mem => mem).2 full
  rw [Table.filter_keys_eq_expiredKeys] at remains
  exact remains

theorem expiresFrom_sweep (store : Store) (now : Nat) : (store.sweep now).ExpiresFrom now := by
  intro full entry expires found ends
  rw [find?_sweep] at found
  have unexpired := (Option.filter_eq_some_iff.mp found).2
  rw [Entry.isExpired, ends, Bool.not_eq_true', decide_eq_false_iff_not, Nat.not_le] at unexpired
  exact Nat.le_of_lt unexpired

end Store

/-! ### Passes -/

/-- A whole millisecond is where a timer fires that is set for it. -/
theorem nextTick_of_dvd {nanos : Nat} (whole : 1000000 ∣ nanos) : nextTick nanos = nanos := by
  unfold nextTick
  omega

namespace Sweeper

variable {wall : Nat → Nat} {millis last limit now : Nat} {sweeper : Sweeper} {store : Store}

/-- **A store in step with its sweeper**, whose last pass was made at `last`, on whole milliseconds: no
entry expires before that pass, and the next one is due an interval later. -/
structure InStep (wall : Nat → Nat) (millis last : Nat) (sweeper : Sweeper) (store : Store) :
    Prop where
  interval : sweeper.interval = .ofMillis millis
  whole : 1000000 ∣ last
  due : sweeper.due = last + millis * 1000000
  kept : store.ExpiresFrom (wall last)

/-- A sweeper that starts counts from the moment at which it starts. -/
theorem inStep_start (long : minInterval.wholeMillis ≤ millis) (whole : 1000000 ∣ now)
    (options : Options) : InStep wall millis now (start now (.ofMillis millis)) (.fresh options) := by
  have ten : minInterval.nanos = 10000000 := rfl
  have longer : (Duration.ofMillis millis).max minInterval = .ofMillis millis := by
    refine congrArg Duration.mk (Nat.max_eq_left ?_)
    unfold Duration.wholeMillis at long
    show minInterval.nanos ≤ millis * 1000000
    omega
  have dvd : 1000000 ∣ now + millis * 1000000 := by omega
  refine ⟨longer, whole, ?_, Store.expiresFrom_of_empty rfl⟩
  show nextTick (now + ((Duration.ofMillis millis).max minInterval).nanos) = _
  rw [longer]
  exact nextTick_of_dvd dvd

/-- Behind a pass, the pass is the last one. -/
theorem InStep.pass (inStep : InStep wall millis last sweeper store) :
    InStep wall millis sweeper.due sweeper.next (store.sweep (wall sweeper.due)) := by
  obtain ⟨interval, whole, due, -⟩ := inStep
  have dvd : 1000000 ∣ sweeper.due := by omega
  have nanos : sweeper.interval.nanos = millis * 1000000 := by
    rw [interval]
    rfl
  have next : sweeper.next.due = nextTick (sweeper.due + sweeper.interval.nanos) := rfl
  rw [nanos, nextTick_of_dvd (Nat.dvd_add dvd (Nat.dvd_mul_left 1000000 millis))] at next
  have same : sweeper.next.interval = .ofMillis millis := by rw [Sweeper.next, interval]
  exact ⟨same, dvd, next, Store.expiresFrom_sweep store (wall sweeper.due)⟩

/-- **All passes that are due are made**, if there is fuel for one every ten milliseconds: if the store is
still open then, the next pass lies ahead. -/
theorem passes_inStep (long : minInterval.wholeMillis ≤ millis) {fuel : Nat}
    (enough : limit < sweeper.due + fuel * minInterval.nanos)
    (inStep : InStep wall millis last sweeper store) (before : last ≤ now) (bounded : limit ≤ now)
    (isOpen : (sweeper.passes wall limit fuel store).2.isOpen = true) :
    limit < (sweeper.passes wall limit fuel store).1.due ∧
      sweeper.due ≤ (sweeper.passes wall limit fuel store).1.due ∧
      ∃ last, last ≤ now ∧ InStep wall millis last (sweeper.passes wall limit fuel store).1
        (sweeper.passes wall limit fuel store).2 := by
  induction fuel generalizing sweeper store last with
  | zero =>
      rw [Nat.zero_mul] at enough
      exact ⟨enough, Nat.le_refl _, last, before, inStep⟩
  | succ fuel ih =>
      rw [passes] at isOpen ⊢
      split at isOpen
      next more =>
        rw [if_pos more]
        rw [Bool.and_eq_true, decide_eq_true_eq] at more
        have passed := inStep.pass
        have ten : minInterval.nanos = 10000000 := rfl
        have next : sweeper.next.due = sweeper.due + millis * 1000000 := passed.due
        have enough' : limit < sweeper.next.due + fuel * minInterval.nanos := by
          unfold Duration.wholeMillis at long
          rw [Nat.succ_mul] at enough
          omega
        obtain ⟨ahead, later, rest⟩ := ih enough' passed (Nat.le_trans more.2 bounded) isOpen
        exact ⟨ahead, by omega, rest⟩
      next through =>
        rw [if_neg through]
        have ahead : limit < sweeper.due := by
          rw [Bool.and_eq_true, decide_eq_true_eq, not_and, Nat.not_le] at through
          exact through isOpen
        exact ⟨ahead, Nat.le_refl _, last, before, inStep⟩

theorem catchUp_inStep (long : minInterval.wholeMillis ≤ millis)
    (inStep : InStep wall millis last sweeper store) (before : last ≤ now) (bounded : limit ≤ now)
    (isOpen : (sweeper.catchUp wall limit store).2.isOpen = true) :
    limit < (sweeper.catchUp wall limit store).1.due ∧
      sweeper.due ≤ (sweeper.catchUp wall limit store).1.due ∧
      ∃ last, last ≤ now ∧ InStep wall millis last (sweeper.catchUp wall limit store).1
        (sweeper.catchUp wall limit store).2 := by
  have enough : limit < sweeper.due +
      ((limit - sweeper.due) / minInterval.nanos + 1) * minInterval.nanos := by
    have ten : minInterval.nanos = 10000000 := rfl
    rw [ten]
    omega
  rw [catchUp] at isOpen ⊢
  exact passes_inStep long enough inStep before bounded isOpen

end Sweeper

/-! ### Deployments -/

namespace Deployment

variable {deployment : Deployment} {backend millis : Nat}

/-- A store in the process is swept in time: if it is open, its next pass lies ahead, and it is in step
with its sweeper.  If it is closed, it is empty. -/
def SweptInTime (deployment : Deployment) (backend millis : Nat) : Prop :=
  ∃ store sweeper, deployment.engines[backend]? = some (.inProcess store sweeper) ∧
    store.Settled ∧ (store.isOpen = true → deployment.elapsed < sweeper.due ∧
      ∃ last, last ≤ deployment.elapsed ∧ sweeper.InStep deployment.wallAt millis last store)

theorem sweptInTime_addLocal (long : Sweeper.minInterval.wholeMillis ≤ millis)
    (whole : 1000000 ∣ deployment.elapsed) (options : Options) :
    (deployment.addLocal options (.ofMillis millis)).2.SweptInTime
      (deployment.addLocal options (.ofMillis millis)).1.id millis := by
  have inStep : Sweeper.InStep deployment.wallAt millis deployment.elapsed _ _ :=
    Sweeper.inStep_start long whole options
  have ten : Sweeper.minInterval.wholeMillis = 10 := rfl
  have ahead : deployment.elapsed < (Sweeper.start deployment.elapsed (.ofMillis millis)).due := by
    rw [inStep.due]
    omega
  exact ⟨.fresh options, _, Array.getElem?_push_size, Bool.noConfusion, fun _ =>
    ⟨ahead, deployment.elapsed, Nat.le_refl _, inStep⟩⟩

theorem SweptInTime.advanceTo (long : Sweeper.minInterval.wholeMillis ≤ millis)
    (swept : deployment.SweptInTime backend millis) (later : Nat) :
    (deployment.advanceTo later).SweptInTime backend millis := by
  obtain ⟨store, sweeper, engine, settled, inTime⟩ := swept
  refine ⟨(sweeper.catchUp deployment.wallAt later store).2,
    (sweeper.catchUp deployment.wallAt later store).1, ?_, ?_, fun isOpen => ?_⟩
  · rw [engines_advanceTo, engine]
    rfl
  · exact Store.catchUp_induction (P := Store.Settled)
      (fun _ settled => Store.settled_happen settled _ .sweep) sweeper settled
  · -- It was open before, since passes do not close.
    have same : (sweeper.catchUp deployment.wallAt later store).2.isOpen = store.isOpen :=
      Store.catchUp_induction (P := fun after => after.isOpen = store.isOpen)
        (fun _ same => same) sweeper rfl
    obtain ⟨ahead, last, le, inStep⟩ := inTime (same.symm.trans isOpen)
    obtain ⟨through, due, rest⟩ := Sweeper.catchUp_inStep long inStep
      (Nat.le_trans le (Nat.le_max_left deployment.elapsed later)) (Nat.le_max_right _ _) isOpen
    exact ⟨Nat.max_lt.mpr ⟨Nat.lt_of_lt_of_le ahead due, through⟩, rest⟩

theorem SweptInTime.perform (swept : deployment.SweptInTime backend millis)
    (early : deployment.wall < word64) (other : Nat) (context : Context) (op : Operation) :
    (deployment.perform other context op).2.SweptInTime backend millis := by
  obtain ⟨store, sweeper, engine, settled, inTime⟩ := swept
  obtain ⟨elapsed, wallAt⟩ := deployment.clock_perform other context op
  by_cases own : other = backend
  · subst own
    obtain ⟨-, there⟩ := perform_inProcess engine context op
    refine ⟨_, sweeper, there, Store.settled_perform settled _ _ op, fun isOpen => ?_⟩
    obtain ⟨ahead, last, le, inStep⟩ := inTime (Store.isOpen_of_perform isOpen).2
    rw [elapsed, wallAt]
    exact ⟨ahead, last, le, { inStep with
      kept := inStep.kept.perform (deployment.wallAt_mono le) early _ op }⟩
  · refine ⟨store, sweeper, (engines_perform_of_ne own context op).trans engine, settled, ?_⟩
    rw [elapsed, wallAt]
    exact inTime

theorem SweptInTime.sweep (swept : deployment.SweptInTime backend millis) (other : Nat) :
    (deployment.sweep other).SweptInTime backend millis := by
  obtain ⟨store, sweeper, engine, settled, inTime⟩ := swept
  refine ⟨_, sweeper, deployment.engines_sweep other backend engine, ?_, ?_⟩
  all_goals split
  · exact Store.settled_happen settled deployment.wall .sweep
  · exact settled
  · intro isOpen
    obtain ⟨ahead, last, le, inStep⟩ := inTime isOpen
    exact ⟨ahead, last, le, { inStep with
      kept := inStep.kept.onlyRemoves (store.sweep_onlyRemoves deployment.wall) }⟩
  · exact inTime

/-- **Whatever happens**, the store goes on to be swept in time. -/
theorem SweptInTime.happen (long : Sweeper.minInterval.wholeMillis ≤ millis)
    (swept : deployment.SweptInTime backend millis) (early : deployment.wall < word64)
    (incident : Incident) : (deployment.happen incident).SweptInTime backend millis := by
  cases incident with
  | ask call =>
      cases call with
      | perform other context op => exact swept.perform early other context op
      | wallClock | limitedContext _ | ticket _ => exact swept
      | pause duration => exact swept.advanceTo long _
  | advance duration => exact swept.advanceTo long _
  | sweep other => exact swept.sweep other
  | cancel token => exact swept

theorem SweptInTime.reach (long : Sweeper.minInterval.wholeMillis ≤ millis)
    (swept : deployment.SweptInTime backend millis) {incidents : List Incident}
    (early : (deployment.reach incidents).wall < word64) :
    (deployment.reach incidents).SweptInTime backend millis := by
  induction incidents generalizing deployment with
  | nil => exact swept
  | cons incident incidents ih =>
      have before := (deployment.happen incident).wall_le_reach incidents
      have here := deployment.wall_le_happen incident
      exact ih (swept.happen long (Nat.lt_of_le_of_lt (Nat.le_trans here before) early) incident)
        early

/-- Where a store is swept in time, no entry has been expired for an interval. -/
theorem SweptInTime.lt_expiry_add (swept : deployment.SweptInTime backend millis) {store : Store}
    (here : deployment.store? backend = some store) {full : Bytes} {entry : Entry} {expires : Nat}
    (found : store.entries.find? full = some entry) (ends : entry.expiresAt = some expires) :
    deployment.wall < expires + millis := by
  obtain ⟨swept, sweeper, engine, settled, inTime⟩ := swept
  obtain rfl : swept = store :=
    Option.some.inj ((store?_eq_some_iff.mpr ⟨sweeper, engine⟩).symm.trans here)
  cases isOpen : swept.isOpen with
  | false =>
      rw [settled isOpen] at found
      cases found
  | true =>
      obtain ⟨ahead, last, -, inStep⟩ := inTime isOpen
      have kept := inStep.kept full entry expires found ends
      have due := inStep.due
      have whole := inStep.whole
      unfold wall wallAt at *
      omega

/-- As long as nobody asks for anything, an entry stays until it has expired. -/
theorem find?_happen {store : Store} (here : deployment.store? backend = some store)
    {incident : Incident} (quiet : ∀ call, incident ≠ .ask call) {full : Bytes} {entry : Entry}
    (found : store.entries.find? full = some entry)
    (unexpired : entry.isExpired (deployment.happen incident).wall = false) :
    ∃ after, (deployment.happen incident).store? backend = some after ∧
      after.entries.find? full = some entry := by
  cases incident with
  | ask call => exact absurd rfl (quiet call)
  | advance duration =>
      obtain ⟨after, there, alike⟩ :=
        alike_advanceTo here (deployment.elapsed + duration.nanos)
      have live := (alike.live full).trans (Table.live?_of_find? found unexpired)
      exact ⟨after, there, (Option.filter_eq_some_iff.mp live).1⟩
  | sweep other =>
      obtain ⟨sweeper, engine⟩ := store?_eq_some_iff.mp here
      refine ⟨_, store?_eq_some_iff.mpr ⟨sweeper, deployment.engines_sweep other backend engine⟩, ?_⟩
      split
      · exact (store.find?_sweep _ full).trans (Table.live?_of_find? found unexpired)
      · exact found
  | cancel token => exact ⟨store, here, found⟩

/-- **Expired entries are reclaimed in time.**  Let a backend be made at a whole millisecond, with an
interval between sweeps that is not too short.  Whatever happens then, every entry in its store has been
expired for less than one interval, if at all; and as long as nobody asks for anything, no entry goes
away that has not expired.  The clock must not have come to what is beyond 64 bits. -/
theorem reclaimed_in_time (deployment : Deployment) (options : Options) {millis : Nat}
    (long : Sweeper.minInterval.wholeMillis ≤ millis) (whole : 1000000 ∣ deployment.elapsed)
    (incidents : List Incident) :
    let made := deployment.addLocal options (.ofMillis millis)
    let reached := made.2.reach incidents
    reached.wall < word64 →
      ∃ store, reached.store? made.1.id = some store ∧
        (∀ full entry expires, store.entries.find? full = some entry →
          entry.expiresAt = some expires → reached.wall < expires + millis) ∧
        ∀ incident : Incident, (∀ call, incident ≠ .ask call) →
          ∀ full entry, store.entries.find? full = some entry →
            entry.isExpired (reached.happen incident).wall = false →
            ∃ after, (reached.happen incident).store? made.1.id = some after ∧
              after.entries.find? full = some entry := by
  intro made reached early
  have swept : reached.SweptInTime made.1.id millis :=
    (sweptInTime_addLocal long whole options).reach long early
  obtain ⟨store, sweeper, engine, -⟩ := id swept
  have here := store?_eq_some_iff.mpr ⟨sweeper, engine⟩
  exact ⟨store, here, fun full entry expires => swept.lt_expiry_add here,
    fun incident quiet full entry => find?_happen here quiet⟩

/-- An entry for a microsecond is expired when it is written.  With an interval of ten milliseconds, it is
still there after nine, and it is gone after ten. -/
theorem reclaimed_in_time_short :
    let made := (Deployment.start 1700000000000).addLocal .standard (.ofMillis 10)
    let reached := made.2.reach
      [.ask (.perform 0 .background (.set (utf8 "k") (utf8 "v") (.ofMicros 1))), .advance (.ofMillis 9)]
    let entry : Entry := ⟨utf8 "v", 1700000000000, some 1700000000000⟩
    (reached.store? 0).map (fun store => store.entries.pairs) = some [(utf8 "cache:k", entry)] ∧
      ((reached.advance (.ofMillis 1)).store? 0).map (fun store => store.entries.pairs) = some [] ∧
      ∃ store, reached.store? made.1.id = some store ∧
        ∀ full entry expires, store.entries.find? full = some entry →
          entry.expiresAt = some expires → reached.wall < expires + 10 := by
  intro made reached entry
  obtain ⟨store, here, bounded, -⟩ := @reclaimed_in_time (Deployment.start 1700000000000) .standard 10
    (by decide) (by decide)
    [.ask (.perform 0 .background (.set (utf8 "k") (utf8 "v") (.ofMicros 1))), .advance (.ofMillis 9)]
    (by decide +kernel)
  exact ⟨by decide +kernel, by decide +kernel, store, here, bounded⟩

end Deployment

end TimedCache
