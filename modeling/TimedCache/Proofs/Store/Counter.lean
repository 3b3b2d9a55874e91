import TimedCache.Proofs.Store.Frame
import TimedCache.Proofs.Text.Decimal

/-!
# Counters add up

A key is a **counter** as long as nothing but counting alters it.  Whatever else happens to the store,
what is live under the key can be told from what was live at the beginning, and from what the calls that
succeeded have added since (`Store.reach_tally`).

**One life.**  As long as the entry that was there at the beginning has not expired, the counter stands
at its number plus all that was added, under the same expiry (`Store.reach_counts`).  Before the first
addition it keeps the text that it had, even if that is no canonical one.  If that text is no number at
all, every addition fails, and the entry stays.

**Another life.**  When the entry expires, counting begins anew, from zero and for ever
(`Store.reach_lapsed`).  Of what was added, only that counts from then on which was added later.

**Exactly.**  A sum that does not fit into a signed 64-bit word is refused, and nothing changes, so what
is stored is never anything but the sum.  A subtraction adds the negative of its amount; both have to
fit into such a word.

## Main Definitions

* `Operation.addend?`, `Operation.gain?` — what an operation wants to add, and what it has added
* `Event.counts` — counting on a key, or leaving it alone
* `Store.Counts` — what a counter is, by what it began with and what was added
* `Store.StandsAt`, `Store.Uncountable` — how a counter answers, and what is no counter
* `Store.Tally` — what a run makes of a key that it counts on
-/

namespace TimedCache

/-! ### What is added -/

/-- What an operation wants to add to the counter of a key. -/
def Operation.addend? (key : Bytes) : Operation → Option Int
  | .increment other delta => if other = key then some delta else none
  | .decrement other delta => if other = key then some (-delta) else none
  | _ => none

/-- What an operation has added to the counter of a key, if it succeeded. -/
def Operation.gain? (key : Bytes) (op : Operation) : op.Answer → Option Int
  | .ok _ => op.addend? key
  | .error _ => none

/-- What an event has added to the counter of a key. -/
def Stage.gain? (key : Bytes) (stage : Stage Store) : Option Int :=
  match stage.event with
  | .call standing op => op.gain? key (stage.answer standing op)
  | _ => none

/-- Whether an event counts on a key, by an amount that fits into a word, or leaves it alone. -/
def Event.counts (key : Bytes) : Event → Bool
  | .call _ op =>
    match op.addend? key with
    | some delta => fitsInt64 delta
    | none => !op.alters key
  | _ => true

/-- A counter behind some additions: the sum, under the expiry that it had.  Before the first one it is
what it was. -/
def counted (origin : Option Cell) (start : Int) (gains : List Int) : Option Cell :=
  if gains.isEmpty then origin else some ⟨intText (start + gains.sum), origin.bind Cell.expiresAt⟩

/-- Further additions go on from the sum. -/
theorem counted_cons (origin : Option Cell) (start gain : Int) (gains : List Int) :
    counted origin start (gain :: gains) =
      counted (some ⟨intText (start + gain), origin.bind Cell.expiresAt⟩) (start + gain) gains := by
  cases gains with
  | nil => simp [counted]
  | cons next gains => simp [counted, Int.add_assoc]

/-- The failure of an addition to what is no number. -/
def notANumber (key : Bytes) : CacheError :=
  .invalidRequest (utf8 "value at '" ++ key ++ utf8 "' is not an integer")

/-- The failure of an addition whose sum is too large or too small. -/
def beyondWord (key : Bytes) : CacheError :=
  .invalidRequest (utf8 "increment of '" ++ key ++ utf8 "' would overflow")

namespace Store

variable {now : Nat} {store : Store} {key : Bytes} {entry : Entry} {events : List Event}

/-- The number that an entry stands for as a counter; no entry stands for zero. -/
def number? (entry : Option Entry) : Option Int :=
  match entry with
  | none => some 0
  | some entry => readInt64? entry.value

/-! ### Additions -/

/-- The counter that takes the place of another one: the text of the sum, under the same expiry. -/
def sumEntry (now : Nat) (held : Option Entry) (sum : Int) : Entry :=
  { held.getD (freshCounter now) with value := intText sum }

theorem expiresAt_sumEntry (now : Nat) (held : Option Entry) (sum : Int) :
    (sumEntry now held sum).expiresAt = held.bind Entry.expiresAt := by
  cases held <;> rfl

/-- The sum lives as long as what it replaces. -/
theorem isExpired_sumEntry (store : Store) (now : Nat) (key : Bytes) (sum : Int) :
    (sumEntry now (store.live? now key) sum).isExpired now = false := by
  rw [Entry.isExpired, expiresAt_sumEntry]
  cases held : store.live? now key with
  | none => rfl
  | some entry => exact isExpired_of_live? held

theorem number?_eq (store : Store) (now : Nat) (key : Bytes) :
    number? (store.live? now key) =
      readInt64? ((store.live? now key).getD (freshCounter now)).value := by
  cases store.live? now key with
  | none => exact (readInt64?_freshCounter now).symm
  | some entry => rfl

/-- **An addition** reads what is live, and puts the sum in its place, if it fits. -/
theorem add_eq (store : Store) (now : Nat) (key : Bytes) (delta : Int) :
    (number? (store.live? now key) = none ∧
        store.add now key delta = (.error (notANumber key), store)) ∨
      ∃ current, number? (store.live? now key) = some current ∧
        ((fitsInt64 (current + delta) = false ∧
            store.add now key delta = (.error (beyondWord key), store)) ∨
          fitsInt64 (current + delta) = true ∧
            ∃ after, store.add now key delta = (.ok (current + delta), after) ∧
              after.live? now key =
                some (sumEntry now (store.live? now key) (current + delta))) := by
  rw [number?_eq]
  unfold add
  dsimp only
  cases readInt64? ((store.live? now key).getD (freshCounter now)).value with
  | none => exact .inl ⟨rfl, rfl⟩
  | some current =>
      refine .inr ⟨current, rfl, ?_⟩
      dsimp only
      cases fits : fitsInt64 (current + delta) with
      | false => exact .inl ⟨rfl, rfl⟩
      | true =>
          rw [if_pos rfl]
          refine .inr ⟨rfl, _, rfl, ?_⟩
          refine (store.live?_insert now key key _ store.ledger).trans ((if_pos rfl).trans ?_)
          rw [Option.filter_some, if_pos (by rw [Bool.not_eq_true']; exact isExpired_sumEntry ..)]
          rfl

/-- What wants to add to a counter is an addition to it. -/
theorem carryOut_of_addend? (store : Store) (now : Nat) {op : Operation} {delta : Int}
    (adds : op.addend? key = some delta) :
    op.isData = true ∧ (store.carryOut now op).2 = (store.add now key delta).2 ∧
      op.gain? key (store.carryOut now op).1 =
        match (store.add now key delta).1 with
        | .ok _ => some delta
        | .error _ => none := by
  cases op with
  | increment other amount =>
      rw [Operation.addend?] at adds
      split at adds
      next same =>
        cases adds
        subst same
        refine ⟨rfl, rfl, ?_⟩
        show Operation.gain? other (.increment other delta) (store.add now other delta).1 = _
        cases (store.add now other delta).1 with
        | ok next => exact if_pos rfl
        | error failure => rfl
      next => cases adds
  | decrement other amount =>
      rw [Operation.addend?] at adds
      split at adds
      next same =>
        cases adds
        subst same
        refine ⟨rfl, rfl, ?_⟩
        show Operation.gain? other (.decrement other amount) (store.add now other (-amount)).1 = _
        cases (store.add now other (-amount)).1 with
        | ok next => exact if_pos rfl
        | error failure => rfl
      next => cases adds
  | _ => cases adds

theorem gain?_of_addend? {op : Operation} (adds : op.addend? key = none) (answer : op.Answer) :
    op.gain? key answer = none := by
  cases answer with
  | ok value => exact adds
  | error failure => rfl

/-- **A call that counts on a key or leaves it alone** leaves what is live under it, or adds to it what
fits. -/
theorem perform_counts (now : Nat) (isOpen : store.isOpen = true) {standing : Standing}
    {op : Operation} (counts : Event.counts key (.call standing op) = true) :
    (store.perform now standing op).2.isOpen = true ∧
      ((op.gain? key (store.perform now standing op).1 = none ∧
          (store.perform now standing op).2.live? now key = store.live? now key) ∨
        ∃ current delta, op.gain? key (store.perform now standing op).1 = some delta ∧
          number? (store.live? now key) = some current ∧ fitsInt64 (current + delta) = true ∧
          (store.perform now standing op).2.live? now key =
            some (sumEntry now (store.live? now key) (current + delta))) := by
  cases adds : op.addend? key with
  | none =>
      have spares : op.alters key = false := by simpa [Event.counts, adds] using counts
      obtain ⟨-, stays, same⟩ := store.live?_perform_of_spared now standing spares
      exact ⟨stays.trans isOpen, .inl ⟨gain?_of_addend? adds _, same⟩⟩
  | some delta =>
      obtain ⟨data, after, gain⟩ := store.carryOut_of_addend? now adds
      cases refusal : store.refusal? standing with
      | some failure =>
          rw [perform_of_refusal refusal data]
          exact ⟨isOpen, .inl ⟨rfl, rfl⟩⟩
      | none =>
          have carried : store.perform now standing op = store.carryOut now op := by
            rw [perform, if_pos data, refusal]
          rw [carried]
          refine ⟨(store.isOpen_carryOut now data).trans isOpen, ?_⟩
          rw [after, gain]
          obtain ⟨-, failed⟩ | ⟨current, reads, ⟨-, failed⟩ | ⟨fits, next, added, held⟩⟩ :=
            store.add_eq now key delta
          · rw [failed]
            exact .inl ⟨rfl, rfl⟩
          · rw [failed]
            exact .inl ⟨rfl, rfl⟩
          · rw [added]
            exact .inr ⟨current, delta, rfl, reads, fits, held⟩

/-! ### One life -/

/-- What a counter is, by what was live at the beginning and what was added since. -/
structure Counts (key : Bytes) (origin : Option Entry) (gains : List Int) (now : Nat)
    (store : Store) : Prop where
  isOpen : store.isOpen = true
  /-- A number goes on to be one: that from the beginning, and all that was added. -/
  readable : ∀ start, number? origin = some start →
    number? (store.live? now key) = some (start + gains.sum) ∧
      (store.live? now key).map Entry.cell = counted (origin.map Entry.cell) start gains
  /-- To what is no number nothing is added. -/
  unreadable : number? origin = none → gains = [] ∧ store.live? now key = origin

theorem counts_self (isOpen : store.isOpen = true) (now : Nat) (key : Bytes) :
    Counts key (store.live? now key) [] now store where
  isOpen := isOpen
  readable := fun start reads => ⟨by rw [reads, List.sum_nil, Int.add_zero], rfl⟩
  unreadable := fun _ => ⟨rfl, rfl⟩

/-- An addition at the beginning. -/
theorem Counts.cons {origin : Option Entry} {gains : List Int} {current delta : Int}
    (reads : number? origin = some current) (fits : fitsInt64 (current + delta) = true)
    {before : Nat} (counts : Counts key (some (sumEntry before origin (current + delta))) gains now store) :
    Counts key origin (delta :: gains) now store where
  isOpen := counts.isOpen
  readable := by
    intro start reads'
    cases reads.symm.trans reads'
    obtain ⟨number, cell⟩ := counts.readable _ (readInt64?_intText fits)
    refine ⟨by rw [number, List.sum_cons, Int.add_assoc], cell.trans ?_⟩
    rw [counted_cons]
    cases origin <;> rfl
  unreadable := fun unread => nomatch reads.symm.trans unread

/-- What is live goes on to be live as long as it has not expired. -/
theorem live?_later_of_unexpired {later : Nat} (le : now ≤ later)
    (lives : ∀ entry, store.live? now key = some entry → entry.isExpired later = false) :
    store.live? later key = store.live? now key := by
  rw [live?_later le]
  cases held : store.live? now key with
  | none => rfl
  | some entry => rw [Option.filter_some, lives entry held]; rfl

/-- **As long as it lives, a counter adds up.** -/
theorem reach_counts (isOpen : store.isOpen = true)
    (counting : ∀ event ∈ events, event.counts key = true)
    (lives : ∀ entry, store.live? now key = some entry →
      entry.isExpired (machine.reach now store events).1 = false) :
    Counts key (store.live? now key) ((machine.history now store events).filterMap (Stage.gain? key))
      (machine.reach now store events).1 (machine.reach now store events).2 := by
  induction events generalizing now store with
  | nil => exact counts_self isOpen now key
  | cons event events ih =>
      obtain ⟨first, others⟩ := List.forall_mem_cons.mp counting
      cases event with
      | call standing op =>
          obtain ⟨stays, ⟨gain, same⟩ | ⟨current, delta, gain, reads, fits, added⟩⟩ :=
            perform_counts now isOpen first
          · have rest := @ih now _ stays others fun entry held => lives entry (same ▸ held)
            rw [same] at rest
            rw [Machine.history, List.filterMap_cons_none (by exact gain)]
            exact rest
          · have rest := @ih now _ stays others fun entry held => by
              cases added.symm.trans held
              rw [Entry.isExpired, expiresAt_sumEntry]
              cases origin : store.live? now key with
              | none => rfl
              | some entry => exact lives entry origin
            rw [added] at rest
            rw [Machine.history, List.filterMap_cons_some (by exact gain)]
            exact rest.cons reads fits
      | advance millis =>
          have le := Nat.le_add_right now millis
          have same := live?_later_of_unexpired le fun entry held =>
            Entry.isExpired_of_later (machine.le_reach _ store events) (lives entry held)
          have rest := @ih (now + millis) store isOpen others fun entry held =>
            lives entry (same ▸ held)
          rw [same] at rest
          exact rest
      | sweep =>
          have same := (store.sweep_alike now).live? key
          have rest := @ih now (store.sweep now) isOpen others fun entry held =>
            lives entry (same ▸ held)
          rw [same] at rest
          exact rest

/-! ### Another life -/

/-- What a counter has been given in the life that it is in at `later`: everything, if what was there at
the beginning still is, and else what was added since it expired. -/
def gainsOf (key : Bytes) (held : Option Entry) (later : Nat) (stages : List (Stage Store)) :
    List Int :=
  (stages.filter fun stage =>
    held.all fun entry => !entry.isExpired later || entry.isExpired stage.now).filterMap
      (Stage.gain? key)

/-- In the first life that is everything. -/
theorem gainsOf_of_lives {held : Option Entry} {later : Nat}
    (lives : ∀ entry, held = some entry → entry.isExpired later = false)
    (stages : List (Stage Store)) :
    gainsOf key held later stages = stages.filterMap (Stage.gain? key) := by
  have everything : (stages.filter fun stage =>
      held.all fun entry => !entry.isExpired later || entry.isExpired stage.now) = stages := by
    refine List.filter_eq_self.mpr fun stage _ => ?_
    cases held with
    | none => rfl
    | some entry => simp [lives entry rfl]
  rw [gainsOf, everything]

/-- **When it has expired**, a counter begins anew.  The induction is on the events up to the one that
lets it expire; what is live under the key may change until then, but its expiry does not. -/
theorem reach_lapsed (isOpen : store.isOpen = true)
    (counting : ∀ event ∈ events, event.counts key = true) {first : Entry}
    (held : store.live? now key = some entry) (expiry : entry.expiresAt = first.expiresAt)
    (expired : first.isExpired (machine.reach now store events).1 = true) :
    Counts key none
      (gainsOf key (some first) (machine.reach now store events).1 (machine.history now store events))
      (machine.reach now store events).1 (machine.reach now store events).2 := by
  have alive : first.isExpired now = false := by
    rw [Entry.isExpired, ← expiry]
    exact isExpired_of_live? held
  induction events generalizing now store entry with
  | nil => exact absurd (alive.symm.trans expired) Bool.noConfusion
  | cons event events ih =>
      obtain ⟨first', others⟩ := List.forall_mem_cons.mp counting
      -- At this stage the first life goes on, so what is added to it is left out.
      have early (stage : Stage Store) (stages : List (Stage Store)) (at_now : stage.now = now) :
          gainsOf key (some first) (machine.reach now store (event :: events)).1 (stage :: stages) =
            gainsOf key (some first) (machine.reach now store (event :: events)).1 stages := by
        rw [gainsOf, List.filter_cons_of_neg (by simp [at_now, alive, expired]), gainsOf]
      rw [Machine.history, early _ _ rfl]
      cases event with
      | call standing op =>
          obtain ⟨stays, ⟨-, same⟩ | ⟨current, delta, -, -, -, added⟩⟩ :=
            perform_counts now isOpen first'
          · exact ih stays others (same.trans held) expiry expired alive
          · refine ih stays others added ?_ expired alive
            rw [expiresAt_sumEntry, held]
            exact expiry
      | sweep =>
          exact ih isOpen others (((store.sweep_alike now).live? key).trans held) expiry expired alive
      | advance millis =>
          have live : store.live? (now + millis) key =
              if first.isExpired (now + millis) then none else some entry := by
            rw [store.live?_later (Nat.le_add_right now millis), held, Option.filter_some,
              Entry.isExpired_congr expiry]
            cases first.isExpired (now + millis) <;> rfl
          cases still : first.isExpired (now + millis) with
          | false =>
              rw [still] at live
              exact ih isOpen others live expiry expired still
          | true =>
              rw [still, if_pos rfl] at live
              have anew := @reach_counts (now + millis) store key events isOpen others
                fun entry held => by cases live.symm.trans held
              rw [live] at anew
              rw [gainsOf, List.filter_eq_self.mpr fun stage mem => ?_]
              · exact anew
              · have after := Entry.isExpired_mono (machine.le_of_mem_history mem) still
                simp [after]

/-! ### The whole run -/

/-- The number that a key stands for as a counter; no entry stands for zero. -/
def CountsFrom (origin : Option Entry) (start : Int) : Prop :=
  match origin with
  | none => start = 0
  | some entry => fitsInt64 start = true ∧ Denotes entry.value start

theorem number?_eq_some_iff {origin : Option Entry} {start : Int} :
    number? origin = some start ↔ CountsFrom origin start := by
  cases origin with
  | none => exact ⟨fun reads => (Option.some.inj reads).symm, fun zero => by rw [number?, zero]⟩
  | some entry => exact readInt64?_eq_some_iff

/-- **A counter that stands at a number** tells the exact sum to everyone who adds to it, as long as it
fits; otherwise it refuses, and nothing changes. -/
structure StandsAt (key : Bytes) (total : Int) (now : Nat) (store : Store) : Prop where
  adds : ∀ delta, fitsInt64 delta = true → fitsInt64 (total + delta) = true →
    (store.perform now .live (.increment key delta)).1 = .ok (total + delta)
  subtracts : ∀ delta, fitsInt64 (-delta) = true → fitsInt64 (total - delta) = true →
    (store.perform now .live (.decrement key delta)).1 = .ok (total - delta)
  tooMuch : ∀ delta, fitsInt64 delta = true → fitsInt64 (total + delta) = false →
    store.perform now .live (.increment key delta) = (.error (beyondWord key), store)
  tooLittle : ∀ delta, fitsInt64 (-delta) = true → fitsInt64 (total - delta) = false →
    store.perform now .live (.decrement key delta) = (.error (beyondWord key), store)

/-- **What is no number** is no counter: whoever adds to it is refused, and nothing changes. -/
structure Uncountable (key : Bytes) (now : Nat) (store : Store) : Prop where
  adds : ∀ delta, store.perform now .live (.increment key delta) = (.error (notANumber key), store)
  subtracts : ∀ delta,
    store.perform now .live (.decrement key delta) = (.error (notANumber key), store)

/-- **What a run makes of a key that it counts on**, by what was live under it at the beginning. -/
structure Tally (key : Bytes) (held : Option Entry) (stages : List (Stage Store)) (later : Nat)
    (behind : Store) : Prop where
  isOpen : behind.isOpen = true
  /-- From a number, or from nothing, it goes on to the sum.  What has expired is nothing. -/
  counter : ∀ start, CountsFrom (held.filter fun entry => !entry.isExpired later) start →
    (behind.live? later key).map Entry.cell =
        counted ((held.filter fun entry => !entry.isExpired later).map Entry.cell) start
          (gainsOf key held later stages) ∧
      StandsAt key (start + (gainsOf key held later stages).sum) later behind
  /-- What is no number stays as it is. -/
  other : (∀ start, ¬CountsFrom (held.filter fun entry => !entry.isExpired later) start) →
    gainsOf key held later stages = [] ∧
      behind.live? later key = held.filter (fun entry => !entry.isExpired later) ∧
      Uncountable key later behind

theorem standsAt_of_number? (isOpen : store.isOpen = true) {total : Int}
    (reads : number? (store.live? now key) = some total) : StandsAt key total now store := by
  have sum (delta : Int) : (fitsInt64 (total + delta) = false ∧
      store.add now key delta = (.error (beyondWord key), store)) ∨
        fitsInt64 (total + delta) = true ∧ (store.add now key delta).1 = .ok (total + delta) := by
    obtain ⟨unread, -⟩ | ⟨current, reads', failed | ⟨fits, after, added, -⟩⟩ :=
      store.add_eq now key delta
    · cases reads.symm.trans unread
    · cases reads.symm.trans reads'
      exact .inl failed
    · cases reads.symm.trans reads'
      exact .inr ⟨fits, by rw [added]⟩
  constructor
  · intro delta _ fits
    rw [perform_of_open isOpen]
    obtain ⟨unfit, -⟩ | ⟨-, told⟩ := sum delta
    · cases fits.symm.trans unfit
    · exact told
  · intro delta _ fits
    rw [perform_of_open isOpen]
    obtain ⟨unfit, -⟩ | ⟨-, told⟩ := sum (-delta)
    · cases fits.symm.trans unfit
    · exact told
  · intro delta _ unfit
    rw [perform_of_open isOpen]
    obtain ⟨-, refused⟩ | ⟨fits, -⟩ := sum delta
    · exact refused
    · cases fits.symm.trans unfit
  · intro delta _ unfit
    rw [perform_of_open isOpen]
    obtain ⟨-, refused⟩ | ⟨fits, -⟩ := sum (-delta)
    · exact refused
    · cases fits.symm.trans unfit

theorem uncountable_of_number? (isOpen : store.isOpen = true)
    (unread : number? (store.live? now key) = none) : Uncountable key now store := by
  have refused (delta : Int) : store.add now key delta = (.error (notANumber key), store) := by
    obtain ⟨-, refused⟩ | ⟨current, reads, -⟩ := store.add_eq now key delta
    · exact refused
    · cases unread.symm.trans reads
  constructor <;> intro delta <;> rw [perform_of_open isOpen]
  · exact refused delta
  · exact refused (-delta)

/-- **Counters add up exactly.** -/
theorem reach_tally (isOpen : store.isOpen = true) (now : Nat)
    (counting : ∀ event ∈ events, event.counts key = true) :
    Tally key (store.live? now key) (machine.history now store events)
      (machine.reach now store events).1 (machine.reach now store events).2 := by
  have counts : Counts key
      ((store.live? now key).filter fun entry =>
        !entry.isExpired (machine.reach now store events).1)
      (gainsOf key (store.live? now key) (machine.reach now store events).1
        (machine.history now store events))
      (machine.reach now store events).1 (machine.reach now store events).2 := by
    cases held : store.live? now key with
    | none =>
        rw [@gainsOf_of_lives key none _ nofun]
        have counts := reach_counts isOpen counting fun entry live => nomatch held.symm.trans live
        rw [held] at counts
        exact counts
    | some entry =>
        cases expired : entry.isExpired (machine.reach now store events).1 with
        | true =>
            rw [Option.filter_some, expired]
            exact reach_lapsed isOpen counting held rfl expired
        | false =>
            have lives : ∀ other, store.live? now key = some other →
                other.isExpired (machine.reach now store events).1 = false := by
              intro other live
              cases held.symm.trans live
              exact expired
            rw [gainsOf_of_lives fun other live => lives other (held.trans live)]
            have counts := reach_counts isOpen counting lives
            rw [held] at counts
            rw [Option.filter_some, expired]
            exact counts
  refine ⟨counts.isOpen, fun start reads => ?_, fun unread => ?_⟩
  · obtain ⟨number, cell⟩ := counts.readable start (number?_eq_some_iff.mpr reads)
    exact ⟨cell, standsAt_of_number? counts.isOpen number⟩
  · have unread : number? ((store.live? now key).filter fun entry =>
        !entry.isExpired (machine.reach now store events).1) = none :=
      Option.eq_none_iff_forall_ne_some.mpr fun start reads =>
        unread start (number?_eq_some_iff.mp reads)
    obtain ⟨none_added, same⟩ := counts.unreadable unread
    exact ⟨none_added, same, uncountable_of_number? counts.isOpen (same ▸ unread)⟩

/-- A store in which a counter stands at `+41` for five milliseconds. -/
def sampleCounter : Store :=
  (Store.fresh .standard).write 0 (utf8 "n") (utf8 "+41") (.ofMillis 5)

/-- What the counter goes through before it expires: an addition, one that is too large, one that comes
to nothing, and a write to another key. -/
def firstLife : List Event :=
  [.call .live (.increment (utf8 "n") 1),
    .call .live (.increment (utf8 "n") 9223372036854775807),
    .call .canceled (.increment (utf8 "n") 1),
    .call .live (.set (utf8 "m") (utf8 "1") .zero),
    .advance 4]

/-- What it goes through from then on. -/
def secondLife : List Event :=
  [.advance 1, .sweep,
    .call .live (.increment (utf8 "n") 7),
    .call .live (.decrement (utf8 "n") 3)]

/-- The counter stands at 42, under its expiry; and in its second life at 4, for ever. -/
theorem reach_tally_sampleCounter :
    let first := machine.reach 0 sampleCounter firstLife
    let second := machine.reach 0 sampleCounter (firstLife ++ secondLife)
    (first.2.live? first.1 (utf8 "n")).map Entry.cell = some ⟨utf8 "42", some 5⟩ ∧
      StandsAt (utf8 "n") 42 first.1 first.2 ∧
      (second.2.live? second.1 (utf8 "n")).map Entry.cell = some ⟨utf8 "4", none⟩ ∧
      StandsAt (utf8 "n") 4 second.1 second.2 := by
  intro first second
  have counting : ∀ event ∈ firstLife ++ secondLife, event.counts (utf8 "n") = true := by
    decide +kernel
  obtain ⟨cell, stands⟩ := (reach_tally (show sampleCounter.isOpen = true from rfl) 0
    fun event mem => counting event (List.mem_append_left secondLife mem)).counter 41
      (number?_eq_some_iff.mp (by decide +kernel))
  obtain ⟨cell', stands'⟩ := (reach_tally (show sampleCounter.isOpen = true from rfl) 0
    counting).counter 0 (number?_eq_some_iff.mp (by decide +kernel))
  have gains : gainsOf (utf8 "n") (sampleCounter.live? 0 (utf8 "n")) first.1
      (machine.history 0 sampleCounter firstLife) = [1] := by decide +kernel
  have gains' : gainsOf (utf8 "n") (sampleCounter.live? 0 (utf8 "n")) second.1
      (machine.history 0 sampleCounter (firstLife ++ secondLife)) = [7, -3] := by decide +kernel
  rw [gains] at cell stands
  rw [gains'] at cell' stands'
  exact ⟨cell.trans (by decide +kernel), stands, cell'.trans (by decide +kernel), stands'⟩

end Store

end TimedCache
