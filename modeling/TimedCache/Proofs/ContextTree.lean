import Mathlib.Order.Bounds.Basic
import TimedCache.Proofs.Store.Failure

/-!
# The tree of contexts

Contexts are created, afresh or below others, and cancelled, in any order and while time passes
(`ContextEvent`).  They are numbered in the order of their creation.

**The chronicle** of what was done knows neither tokens nor deadlines.  For each context it notes when
it was created, below which other one, and with which time limit; and it notes which contexts were
cancelled (`Chronicle`).  What a context descends from is read off it (`Chronicle.Descends`), and so
are the moments at which some limit above the context runs out (`Chronicle.dues`).

**The tree tells the same** (`ContextTree.Sound`).  A context is cancelled exactly if it descends from
one that was cancelled, itself included, before or after its creation; its deadline is the earliest
of the moments that are due for it; and checking it found which of the two has ended it, if any has.
So what ends a context ends all its descendants, and for good (`ContextTree.reach_sound`).

## Main Definitions

* `ContextEvent`, `ContextTree` — what can be done with contexts, and what it leads to
* `Chronicle` — what was done
* `ContextTree.Sound` — the tree tells what the chronicle tells
-/

namespace TimedCache

/-- What can be done with contexts, and the passing of time. -/
inductive ContextEvent where
  | fresh (timeout : Option Duration)
  | child (parent : Nat) (timeout : Option Duration)
  | cancel (index : Nat)
  | advance (duration : Duration)

/-! ### Trees -/

/-- The contexts created so far, the tokens handed out to them, and the monotonic clock. -/
structure ContextTree where
  clock : Nat
  tokens : TokenForest
  contexts : List Context

namespace ContextTree

/-- No contexts yet. -/
def start (clock : Nat) : ContextTree := ⟨clock, .empty, []⟩

/-- The tree behind an event.  Below a context that does not exist nothing is created, and where there
is none nothing is cancelled. -/
def happen (tree : ContextTree) : ContextEvent → ContextTree
  | .fresh timeout =>
    let (context, tokens) := tree.tokens.fresh tree.clock timeout
    { tree with tokens := tokens, contexts := tree.contexts ++ [context] }
  | .child parent timeout =>
    match tree.contexts[parent]? with
    | none => tree
    | some above =>
      let (context, tokens) := tree.tokens.child tree.clock above timeout
      { tree with tokens := tokens, contexts := tree.contexts ++ [context] }
  | .cancel index =>
    match tree.contexts[index]?.bind Context.token with
    | none => tree
    | some token => { tree with tokens := tree.tokens.cancel token }
  | .advance duration => { tree with clock := tree.clock + duration.nanos }

/-- The tree behind some events. -/
def reach (tree : ContextTree) (events : List ContextEvent) : ContextTree :=
  events.foldl happen tree

/-- Whether work may go on under a context, and if not, why. -/
def check (tree : ContextTree) (context : Context) : Option CacheError :=
  (tree.tokens.standing tree.clock context).failure?

end ContextTree

/-! ### Chronicles -/

/-- How a context came about. -/
structure Origin where
  parent : Option Nat
  moment : Nat
  timeout : Option Duration

/-- When the own time limit of a context runs out. -/
def Origin.due? (origin : Origin) : Option Nat :=
  origin.timeout.map fun timeout => origin.moment + timeout.nanos

/-- How all contexts came about, in order, and which of them were cancelled. -/
structure Chronicle where
  clock : Nat
  origins : List Origin
  cancelled : List Nat

namespace Chronicle

def start (clock : Nat) : Chronicle := ⟨clock, [], []⟩

/-- Notes one event. -/
def note (told : Chronicle) : ContextEvent → Chronicle
  | .fresh timeout => { told with origins := told.origins ++ [⟨none, told.clock, timeout⟩] }
  | .child parent timeout =>
    if parent < told.origins.length then
      { told with origins := told.origins ++ [⟨some parent, told.clock, timeout⟩] }
    else told
  | .cancel index =>
    if index < told.origins.length then { told with cancelled := index :: told.cancelled } else told
  | .advance duration => { told with clock := told.clock + duration.nanos }

/-- Notes some events. -/
def tell (told : Chronicle) (events : List ContextEvent) : Chronicle :=
  events.foldl note told

/-- A context descends from itself, and from all that the one above it descends from. -/
inductive Descends (told : Chronicle) : Nat → Nat → Prop
  | self {index : Nat} : Descends told index index
  | up {index parent above : Nat} {origin : Origin} (born : told.origins[index]? = some origin)
      (below : origin.parent = some parent) (descends : Descends told parent above) :
      Descends told index above

/-- A context descends from one that was cancelled. -/
def Ended (told : Chronicle) (index : Nat) : Prop :=
  ∃ above, told.Descends index above ∧ above ∈ told.cancelled

/-- The moments at which a time limit of a context or of one above it runs out. -/
def dues (told : Chronicle) (index : Nat) : Set Nat :=
  {due | ∃ above origin, told.Descends index above ∧ told.origins[above]? = some origin ∧
    origin.due? = some due}

variable {told later : Chronicle} {index middle above : Nat} {origin : Origin}

theorem Descends.trans (first : told.Descends index middle) (second : told.Descends middle above) :
    told.Descends index above := by
  induction first with
  | self => exact second
  | up born below _ ih => exact .up born below (ih second)

theorem descends_iff (born : told.origins[index]? = some origin) :
    told.Descends index above ↔
      above = index ∨ ∃ parent, origin.parent = some parent ∧ told.Descends parent above := by
  constructor
  · rintro (_ | ⟨born', below, descends⟩)
    · exact .inl rfl
    · cases born.symm.trans born'
      exact .inr ⟨_, below, descends⟩
  · rintro (rfl | ⟨parent, below, descends⟩)
    · exact .self
    · exact .up born below descends

/-- What ends a context ends all that descends from it. -/
theorem Ended.inherited (ended : told.Ended above) (descends : told.Descends index above) :
    told.Ended index := by
  obtain ⟨top, higher, cancelled⟩ := ended
  exact ⟨top, descends.trans higher, cancelled⟩

/-- A context is over when it has ended, or one of its time limits has run out. -/
def Over (told : Chronicle) (index : Nat) : Prop :=
  told.Ended index ∨ ∃ due ∈ told.dues index, due ≤ told.clock

theorem dues_inherited (descends : told.Descends index above) : told.dues above ⊆ told.dues index := by
  rintro due ⟨top, origin, higher, born, runsOut⟩
  exact ⟨top, origin, descends.trans higher, born, runsOut⟩

theorem Over.inherited (isOver : told.Over above) (descends : told.Descends index above) :
    told.Over index :=
  isOver.imp (fun ended => ended.inherited descends) fun ⟨due, mem, reached⟩ =>
    ⟨due, dues_inherited descends mem, reached⟩

/-- The moments that are due for a context: its own one, and those of the context above it. -/
theorem dues_eq (born : told.origins[index]? = some origin) :
    told.dues index =
      {due | origin.due? = some due} ∪ {due | ∃ parent, origin.parent = some parent ∧
        due ∈ told.dues parent} := by
  ext due
  constructor
  · rintro ⟨above, other, descends, born', runsOut⟩
    obtain rfl | ⟨parent, below, descends⟩ := (descends_iff born).mp descends
    · cases born.symm.trans born'
      exact .inl runsOut
    · exact .inr ⟨parent, below, above, other, descends, born', runsOut⟩
  · rintro (runsOut | ⟨parent, below, above, other, descends, born', runsOut⟩)
    · exact ⟨index, origin, .self, born, runsOut⟩
    · exact ⟨above, other, .up born below descends, born', runsOut⟩

/-! ### Chronicles that go on -/

/-- What is told stays told. -/
structure Continues (told later : Chronicle) : Prop where
  clock : told.clock ≤ later.clock
  origins : told.origins <+: later.origins
  cancelled : told.cancelled ⊆ later.cancelled

theorem Continues.refl (told : Chronicle) : told.Continues told :=
  ⟨Nat.le_refl told.clock, List.prefix_refl told.origins, List.Subset.refl told.cancelled⟩

theorem Continues.trans {last : Chronicle} (first : told.Continues later)
    (second : later.Continues last) : told.Continues last :=
  ⟨Nat.le_trans first.clock second.clock, first.origins.trans second.origins,
    List.Subset.trans first.cancelled second.cancelled⟩

theorem continues_note (told : Chronicle) (event : ContextEvent) : told.Continues (told.note event) := by
  have same := Continues.refl told
  cases event with
  | fresh timeout => exact ⟨same.clock, List.prefix_append told.origins _, same.cancelled⟩
  | child parent timeout =>
      rw [note]
      split
      · exact ⟨same.clock, List.prefix_append told.origins _, same.cancelled⟩
      · exact same
  | cancel index =>
      rw [note]
      split
      · exact ⟨same.clock, same.origins, List.subset_cons_self index told.cancelled⟩
      · exact same
  | advance duration => exact ⟨Nat.le_add_right _ _, same.origins, same.cancelled⟩

theorem continues_tell (told : Chronicle) (events : List ContextEvent) :
    told.Continues (told.tell events) := by
  induction events generalizing told with
  | nil => exact .refl told
  | cons event events ih => exact (told.continues_note event).trans (ih (told.note event))

theorem Continues.born (continues : told.Continues later)
    (born : told.origins[index]? = some origin) : later.origins[index]? = some origin := by
  obtain ⟨more, same⟩ := continues.origins
  rw [← same, List.getElem?_append_left (List.getElem?_eq_some_iff.mp born).1]
  exact born

theorem Continues.descends (continues : told.Continues later)
    (descends : told.Descends index above) : later.Descends index above := by
  induction descends with
  | self => exact .self
  | up born below _ ih => exact .up (continues.born born) below ih

theorem Continues.ended (continues : told.Continues later) (ended : told.Ended index) :
    later.Ended index := by
  obtain ⟨above, descends, cancelled⟩ := ended
  exact ⟨above, continues.descends descends, continues.cancelled cancelled⟩

theorem Continues.dues (continues : told.Continues later) : told.dues index ⊆ later.dues index := by
  rintro due ⟨above, origin, descends, born, runsOut⟩
  exact ⟨above, origin, continues.descends descends, continues.born born, runsOut⟩

/-- What is over stays over. -/
theorem Continues.isOver (continues : told.Continues later) (isOver : told.Over index) :
    later.Over index :=
  isOver.imp continues.ended fun ⟨due, mem, reached⟩ =>
    ⟨due, continues.dues mem, Nat.le_trans reached continues.clock⟩

end Chronicle

/-! ### What the tree tells -/

/-- The earliest of some moments, if there is any. -/
def Earliest (moments : Set Nat) : Option Nat → Prop
  | none => moments = ∅
  | some moment => IsLeast moments moment

/-- Some moment has come exactly if the earliest one has. -/
theorem Earliest.exists_le_iff {moments : Set Nat} {moment : Option Nat}
    (earliest : Earliest moments moment) (clock : Nat) :
    (∃ due ∈ moments, due ≤ clock) ↔ ∃ due, moment = some due ∧ due ≤ clock := by
  cases moment with
  | none =>
      rw [show moments = ∅ from earliest]
      simp
  | some moment =>
      constructor
      · rintro ⟨due, mem, reached⟩
        exact ⟨moment, rfl, Nat.le_trans (earliest.2 mem) reached⟩
      · rintro ⟨due, same, reached⟩
        cases same
        exact ⟨moment, earliest.1, reached⟩

theorem earliest_own (own : Option Nat) : Earliest {moment | own = some moment} own := by
  cases own with
  | none => exact Set.eq_empty_of_forall_notMem fun _ absurd => nomatch absurd
  | some moment => exact ⟨rfl, fun other same => Nat.le_of_eq (Option.some.inj same)⟩

/-- The earlier of two earliest moments is the earliest of them all. -/
theorem Earliest.union {moments others : Set Nat} {moment other : Option Nat}
    (first : Earliest moments moment) (second : Earliest others other) :
    Earliest (moments ∪ others) (Context.earlier moment other) := by
  cases moment with
  | none =>
      rw [show moments = ∅ from first, Set.empty_union]
      cases other <;> exact second
  | some moment =>
      cases other with
      | none =>
          rw [show others = ∅ from second, Set.union_empty]
          exact first
      | some other => exact IsLeast.union first second

namespace ContextTree

/-- The chronicle and the tree belong together: the same clock, the same contexts, and to each context
a token of its own number, and a deadline made of that above it and its own one. -/
structure Keeps (told : Chronicle) (tree : ContextTree) : Prop where
  clock : tree.clock = told.clock
  length : tree.contexts.length = told.origins.length
  size : tree.tokens.tokens.size = told.origins.length
  known : ∀ index ∈ told.cancelled, index < told.origins.length
  older : ∀ {index parent : Nat} {origin : Origin}, told.origins[index]? = some origin →
    origin.parent = some parent → parent < index
  token : ∀ {index : Nat} {origin : Origin}, told.origins[index]? = some origin →
    tree.tokens.tokens[index]? = some ⟨origin.parent, decide (index ∈ told.cancelled)⟩
  context : ∀ {index : Nat} {context : Context}, tree.contexts[index]? = some context →
    context.token = some index ∧ ∃ origin, told.origins[index]? = some origin ∧
      ((origin.parent = none ∧ context.deadline = origin.due?) ∨
        ∃ parent above, origin.parent = some parent ∧ tree.contexts[parent]? = some above ∧
          context.deadline = Context.earlier above.deadline origin.due?)

variable {told : Chronicle} {tree : ContextTree} {index above : Nat} {context : Context}

theorem keeps_start (clock : Nat) : Keeps (.start clock) (start clock) where
  clock := rfl
  length := rfl
  size := rfl
  known := List.forall_mem_nil _
  older := fun born => nomatch born
  token := fun born => nomatch born
  context := fun there => nomatch there

/-- A context that is created belongs to what is noted of it. -/
theorem Keeps.create (keeps : Keeps told tree) {origin : Origin} {context : Context}
    (older : ∀ {parent}, origin.parent = some parent → parent < told.origins.length)
    (token : context.token = some told.origins.length)
    (deadline : (origin.parent = none ∧ context.deadline = origin.due?) ∨
      ∃ parent above, origin.parent = some parent ∧ tree.contexts[parent]? = some above ∧
        context.deadline = Context.earlier above.deadline origin.due?) :
    Keeps { told with origins := told.origins ++ [origin] }
      { tree with
        tokens := ⟨tree.tokens.tokens.push ⟨origin.parent, false⟩⟩
        contexts := tree.contexts ++ [context] } where
  clock := keeps.clock
  length := by rw [List.length_append, List.length_append, keeps.length]; rfl
  size := by rw [Array.size_push, List.length_append, keeps.size]; rfl
  known := fun index cancelled => by
    rw [List.length_append]
    exact Nat.lt_add_right _ (keeps.known index cancelled)
  older := fun {index parent origin'} born below => by
    rw [List.getElem?_append] at born
    split at born
    next => exact keeps.older born below
    next behind =>
      rw [List.getElem?_singleton] at born
      split at born
      next =>
        cases born
        exact Nat.lt_of_lt_of_le (older below) (Nat.le_of_not_lt behind)
      next => cases born
  token := fun {index origin'} born => by
    rw [List.getElem?_append] at born
    rw [Array.getElem?_push, keeps.size]
    split at born
    next there => rw [if_neg (Nat.ne_of_lt there), keeps.token born]
    next behind =>
      rw [List.getElem?_singleton] at born
      split at born
      next first =>
        cases born
        have last : index = told.origins.length := by omega
        have uncancelled : index ∉ told.cancelled := fun cancelled =>
          behind (keeps.known index cancelled)
        rw [if_pos last, decide_eq_false uncancelled]
      next => cases born
  context := fun {index context'} there => by
    -- What stands above a context was there before it.
    have stays : ∀ {parent above}, tree.contexts[parent]? = some above →
        (tree.contexts ++ [context])[parent]? = some above := fun there => by
      rw [List.getElem?_append_left (List.getElem?_eq_some_iff.mp there).1]
      exact there
    rw [List.getElem?_append] at there
    split at there
    next =>
      obtain ⟨token, origin', born, deadline⟩ := keeps.context there
      refine ⟨token, origin', ?_, deadline.imp_right ?_⟩
      · rw [List.getElem?_append_left (List.getElem?_eq_some_iff.mp born).1]
        exact born
      · rintro ⟨parent, above, below, there, deadline⟩
        exact ⟨parent, above, below, stays there, deadline⟩
    next behind =>
      rw [List.getElem?_singleton] at there
      split at there
      next first =>
        cases there
        have last : index = told.origins.length := by
          have length := keeps.length
          omega
        subst last
        refine ⟨token, origin, List.getElem?_concat_length, deadline.imp_right ?_⟩
        rintro ⟨parent, above, below, there, deadline⟩
        exact ⟨parent, above, below, stays there, deadline⟩
      next => cases there

/-- A context that is cancelled is noted to be cancelled. -/
theorem Keeps.cancel (keeps : Keeps told tree) (there : index < told.origins.length) :
    Keeps { told with cancelled := index :: told.cancelled }
      { tree with tokens := tree.tokens.cancel index } where
  clock := keeps.clock
  length := keeps.length
  size := (Array.size_modify).trans keeps.size
  known := List.forall_mem_cons.mpr ⟨there, keeps.known⟩
  older := keeps.older
  token := fun {other origin} born => by
    rw [TokenForest.cancel, Array.getElem?_modify, keeps.token born]
    by_cases same : index = other
    · subst same
      simp
    · simp [same, Ne.symm same]
  context := keeps.context

/-- **Every event is noted as it happens.** -/
theorem Keeps.happen (keeps : Keeps told tree) (event : ContextEvent) :
    Keeps (told.note event) (tree.happen event) := by
  have size := congrArg some keeps.size
  have clock := keeps.clock
  cases event with
  | fresh timeout =>
      refine keeps.create (fun absurd => nomatch absurd) size (.inl ⟨rfl, ?_⟩)
      rw [clock]
      rfl
  | child parent timeout =>
      rw [ContextTree.happen, Chronicle.note]
      cases there : tree.contexts[parent]? with
      | none =>
          have behind := List.getElem?_eq_none_iff.mp there
          rw [keeps.length] at behind
          rw [if_neg (Nat.not_lt_of_le behind)]
          exact keeps
      | some above =>
          have before := (List.getElem?_eq_some_iff.mp there).1
          rw [keeps.length] at before
          have token := (keeps.context there).1
          rw [if_pos before]
          dsimp only [TokenForest.child, TokenForest.derive]
          rw [token]
          refine keeps.create (fun below => Option.some.inj below ▸ before) size
            (.inr ⟨parent, above, rfl, there, ?_⟩)
          rw [clock]
          rfl
  | cancel index =>
      rw [ContextTree.happen, Chronicle.note]
      cases there : tree.contexts[index]? with
      | none =>
          have behind := List.getElem?_eq_none_iff.mp there
          rw [keeps.length] at behind
          rw [if_neg (Nat.not_lt_of_le behind)]
          exact keeps
      | some context =>
          have before := (List.getElem?_eq_some_iff.mp there).1
          rw [keeps.length] at before
          rw [if_pos before, Option.bind_some, (keeps.context there).1]
          exact keeps.cancel before
  | advance duration =>
      exact ⟨congrArg (· + duration.nanos) clock, keeps.length, keeps.size, keeps.known, keeps.older,
        keeps.token, keeps.context⟩

theorem Keeps.reach (keeps : Keeps told tree) (events : List ContextEvent) :
    Keeps (told.tell events) (tree.reach events) := by
  induction events generalizing told tree with
  | nil => exact keeps
  | cons event events ih => exact ih (keeps.happen event)

/-! ### Cancellation and deadlines -/

/-- The walk upwards finds a cancelled token exactly where there is one, if it goes far enough. -/
theorem Keeps.cancelledWithin_iff (keeps : Keeps told tree) {fuel : Nat} (enough : index < fuel)
    (there : index < told.origins.length) :
    tree.tokens.cancelledWithin fuel index = true ↔ told.Ended index := by
  induction fuel generalizing index with
  | zero => exact absurd enough (Nat.not_lt_zero index)
  | succ fuel ih =>
      have born := List.getElem?_eq_getElem there
      generalize told.origins[index] = origin at born
      have ends : told.Ended index ↔ index ∈ told.cancelled ∨
          ∃ parent, origin.parent = some parent ∧ told.Ended parent := by
        constructor
        · rintro ⟨above, descends, cancelled⟩
          obtain rfl | ⟨parent, below, descends⟩ := (Chronicle.descends_iff born).mp descends
          · exact .inl cancelled
          · exact .inr ⟨parent, below, above, descends, cancelled⟩
        · rintro (cancelled | ⟨parent, below, ended⟩)
          · exact ⟨index, .self, cancelled⟩
          · exact ended.inherited (.up born below .self)
      rw [TokenForest.cancelledWithin, keeps.token born, ends]
      dsimp only
      rw [Bool.or_eq_true, decide_eq_true_eq]
      refine or_congr_right ?_
      cases below : origin.parent with
      | none => simp
      | some parent =>
          have older := keeps.older born below
          dsimp only
          rw [ih (Nat.lt_of_lt_of_le older (Nat.le_of_lt_succ enough)) (Nat.lt_trans older there)]
          simp

/-- **A context is cancelled** exactly if it descends from one that was cancelled. -/
theorem Keeps.hasCancelled_iff (keeps : Keeps told tree)
    (there : tree.contexts[index]? = some context) :
    tree.tokens.hasCancelled context = true ↔ told.Ended index := by
  have before := (List.getElem?_eq_some_iff.mp there).1
  rw [keeps.length] at before
  rw [TokenForest.hasCancelled, (keeps.context there).1]
  exact keeps.cancelledWithin_iff (Nat.lt_succ_self index) before

/-- **The deadline of a context** is the earliest moment that is due for it. -/
theorem Keeps.deadline_earliest (keeps : Keeps told tree)
    (there : tree.contexts[index]? = some context) :
    Earliest (told.dues index) context.deadline := by
  induction index using Nat.strongRecOn generalizing context with
  | ind index ih =>
      obtain ⟨-, origin, born, ⟨top, deadline⟩ | ⟨parent, above, below, higher, deadline⟩⟩ :=
        keeps.context there
      · rw [Chronicle.dues_eq born, deadline, top]
        simpa using earliest_own origin.due?
      · have inherited := ih parent (keeps.older born below) higher
        rw [Chronicle.dues_eq born, deadline, below, Set.union_comm]
        simpa using inherited.union (earliest_own origin.due?)

/-! ### Checks -/

/-- **What a check found**: cancellation first, then a deadline that is reached. -/
theorem Keeps.check_eq (keeps : Keeps told tree) (there : tree.contexts[index]? = some context) :
    (told.Ended index ∧ tree.check context = some .canceled) ∨
      (¬told.Ended index ∧ (∃ due ∈ told.dues index, due ≤ told.clock) ∧
        tree.check context = some .deadlineExceeded) ∨
      (¬told.Over index ∧ tree.check context = none) := by
  have cancelled := keeps.hasCancelled_iff there
  have reached := (keeps.deadline_earliest there).exists_le_iff told.clock
  unfold check
  rw [keeps.clock]
  by_cases ended : told.Ended index
  · left
    rw [TokenForest.standing_of_cancelled (cancelled.mpr ended)]
    exact ⟨ended, rfl⟩
  · right
    have uncancelled := Bool.eq_false_iff.mpr fun ends => ended (cancelled.mp ends)
    by_cases due : ∃ due ∈ told.dues index, due ≤ told.clock
    · left
      obtain ⟨deadline, ends, passed⟩ := reached.mp due
      rw [TokenForest.standing_of_deadline uncancelled ends passed]
      exact ⟨ended, due, rfl⟩
    · right
      rw [TokenForest.standing_of_ahead uncancelled fun deadline ends =>
        Nat.lt_of_not_le fun passed => due (reached.mpr ⟨deadline, ends, passed⟩)]
      exact ⟨fun isOver => isOver.elim ended due, rfl⟩

theorem Keeps.check_ne_none_iff (keeps : Keeps told tree)
    (there : tree.contexts[index]? = some context) :
    tree.check context ≠ none ↔ told.Over index := by
  obtain ⟨ended, found⟩ | ⟨-, due, found⟩ | ⟨live, found⟩ := keeps.check_eq there
  · simpa [found] using .inl ended
  · simpa [found] using .inr due
  · simpa [found] using live

/-- Contexts that were created stay as they are. -/
theorem contexts_reach (tree : ContextTree) (events : List ContextEvent) :
    tree.contexts <+: (tree.reach events).contexts := by
  induction events generalizing tree with
  | nil => exact List.prefix_refl tree.contexts
  | cons event events ih =>
      refine List.IsPrefix.trans ?_ (ih (tree.happen event))
      cases event with
      | fresh timeout => exact List.prefix_append _ _
      | child parent timeout =>
          rw [happen]
          cases tree.contexts[parent]? with
          | none => exact List.prefix_refl tree.contexts
          | some above => exact List.prefix_append _ _
      | cancel index =>
          rw [happen]
          cases tree.contexts[index]?.bind Context.token <;> exact List.prefix_refl tree.contexts
      | advance duration => exact List.prefix_refl tree.contexts

/-- What the tree tells of one context is what the chronicle tells of it. -/
structure Tells (told : Chronicle) (tree : ContextTree) (index : Nat) (context : Context) : Prop where
  /-- It is cancelled exactly if it, or one that it descends from, was cancelled. -/
  cancelled_iff : tree.tokens.hasCancelled context = true ↔ told.Ended index
  /-- Its deadline is the earliest moment that is due for it, or for one that it descends from. -/
  deadline : Earliest (told.dues index) context.deadline
  /-- A check reports cancellation first, then a deadline that the clock has reached. -/
  check_canceled : tree.check context = some .canceled ↔ told.Ended index
  check_exceeded : tree.check context = some .deadlineExceeded ↔
    ¬told.Ended index ∧ ∃ due ∈ told.dues index, due ≤ told.clock
  check_passes : tree.check context = none ↔
    ¬told.Ended index ∧ ∀ due ∈ told.dues index, told.clock < due
  /-- Once a check fails, it never passes again. -/
  lasting : ∀ events, (tree.reach events).contexts[index]? = some context ∧
    (tree.check context ≠ none → (tree.reach events).check context ≠ none)

/-- **The tree tells what the chronicle tells.** -/
structure Sound (told : Chronicle) (tree : ContextTree) : Prop where
  /-- There is a context for each creation. -/
  length : tree.contexts.length = told.origins.length
  tells : ∀ index context, tree.contexts[index]? = some context → Tells told tree index context
  /-- What fails a context fails all that descends from it. -/
  inherited : ∀ index context above higher, tree.contexts[index]? = some context →
    tree.contexts[above]? = some higher → told.Descends index above →
    tree.check higher ≠ none → tree.check context ≠ none

theorem Keeps.tells (keeps : Keeps told tree) (there : tree.contexts[index]? = some context) :
    Tells told tree index context := by
  refine ⟨keeps.hasCancelled_iff there, keeps.deadline_earliest there, ?_, ?_, ?_, fun events => ?_⟩
  · obtain ⟨ended, found⟩ | ⟨live, -, found⟩ | ⟨live, found⟩ := keeps.check_eq there
    · simpa [found] using ended
    · simpa [found] using live
    · simpa [found] using fun ended => live (.inl ended)
  · obtain ⟨ended, found⟩ | ⟨live, due, found⟩ | ⟨live, found⟩ := keeps.check_eq there
    · simpa [found] using fun uncancelled => absurd ended uncancelled
    · simpa [found] using ⟨live, due⟩
    · simpa [found] using fun _ due mem =>
        Nat.lt_of_not_le fun reached => live (.inr ⟨due, mem, reached⟩)
  · have passes := not_congr (keeps.check_ne_none_iff there)
    rw [not_not] at passes
    rw [passes, Chronicle.Over, not_or]
    simp
  · obtain ⟨more, same⟩ := tree.contexts_reach events
    have stays : (tree.reach events).contexts[index]? = some context := by
      rw [← same, List.getElem?_append_left (List.getElem?_eq_some_iff.mp there).1]
      exact there
    refine ⟨stays, fun failed => ?_⟩
    have isOver := (keeps.check_ne_none_iff there).mp failed
    exact ((keeps.reach events).check_ne_none_iff stays).mpr ((told.continues_tell events).isOver isOver)

/-- **Contexts form a sound tree**, whatever is created and cancelled, and whenever. -/
theorem reach_sound (clock : Nat) (events : List ContextEvent) :
    Sound ((Chronicle.start clock).tell events) ((start clock).reach events) := by
  have keeps := (keeps_start clock).reach events
  refine ⟨keeps.length, fun index context there => keeps.tells there, ?_⟩
  intro index context above higher there aboveThere descends failed
  have isOver := (keeps.check_ne_none_iff aboveThere).mp failed
  exact (keeps.check_ne_none_iff there).mpr (isOver.inherited descends)

/-- Two generations below a context with a time limit: of two children one is cancelled, and so is its
own child, whose limit would have run out first. -/
def family : List ContextEvent :=
  [.fresh (some (.ofMillis 50)), .child 0 (some (.ofSecs 60)), .child 0 none,
    .child 1 (some (.ofMillis 10)), .cancel 1, .advance (.ofMillis 20)]

/-- The parent and the other child go on, until the limit of the parent has run out for both. -/
theorem reach_sound_family :
    let tree := (start 0).reach family
    let late := tree.reach [.advance (.ofMillis 30)]
    tree.contexts.map Context.deadline =
        [some 50000000, some 50000000, some 50000000, some 10000000] ∧
      tree.contexts.map tree.check = [none, some .canceled, none, some .canceled] ∧
      ((Chronicle.start 0).tell family).Ended 3 ∧
      late.contexts.map late.check = [some .deadlineExceeded, some .canceled,
        some .deadlineExceeded, some .canceled] := by
  intro tree late
  have sound := reach_sound 0 family
  have tells := sound.tells 3 ⟨some 3, some 10000000⟩ (by decide)
  have ended := tells.check_canceled.mp (by decide)
  exact ⟨by decide, by decide, ended, by decide⟩

end ContextTree

end TimedCache
