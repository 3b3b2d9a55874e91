import TimedCache.Proofs.Glob.Machine

/-!
# Matching ends, quickly and inside its bounds

Patterns come from outside, so a pattern that keeps the machine busy for ever, or leads it out of its
arrays, would be an attack.  There is none (`matching_ends`).

**The machine.**  Its indices go back when the latest star takes one byte more, but its progress never
does (`State.InBounds.round`), and progress is bounded.  So a run has a length, and up to there it goes
through states that lie inside (`run_course`).

**Classes.**  To read the items of a class is a loop of its own, which moves on by one, two or three
bytes.  `scanItems` is given fuel and answers in any case, so its answer alone does not tell that the
loop has ended.  `itemRounds` is the same loop, which says so when its rounds are used up
(`scanItems_of_ends`); as many rounds as there are bytes left are enough (`itemRounds_ends`).

**The byte tested** decides whether the class is hit, and nothing else: the items and the end of a class
are read off the pattern (`scanClass_eq`).

## Main Definitions

* `itemRound`, `itemRounds` — one round, and some rounds, of reading the items of a class
* `Halts` — how a run of the machine goes
* `ClassHalts` — how the scan of a class goes
-/

namespace TimedCache.Glob

/-! ### Reading the items of a class, round by round -/

/-- What one round of reading the items of a class leads to. -/
inductive ItemRound where
  /-- The items go on at `next`. -/
  | more (next : Nat) (hit : Bool)
  /-- The scan has ended. -/
  | ends (scan : ClassScan)
  deriving DecidableEq, Repr

/-- One round at index `i`.  Every read checks its index. -/
def itemRound (p : Array UInt8) (c : UInt8) (i : Nat) (hit : Bool) : ItemRound :=
  if i < p.size then
    match p[i]? with
    | none => .ends .strayRead
    | some item =>
      if item = 0x5D then .ends (.closed hit (i + 1))
      else if item = 0x5C && i + 1 < p.size then
        match p[i + 1]? with
        | none => .ends .strayRead
        | some escaped => .more (i + 2) (hit || escaped = c)
      else if i + 2 < p.size then
        match p[i + 1]?, p[i + 2]? with
        | some dash, some last =>
          if dash = 0x2D && last ≠ 0x5D then .more (i + 3) (hit || inRange item last c)
          else .more (i + 1) (hit || item = c)
        | _, _ => .ends .strayRead
      else .more (i + 1) (hit || item = c)
  else .ends .unterminated

/-- At most `fuel` rounds. -/
def itemRounds (p : Array UInt8) (c : UInt8) : (fuel i : Nat) → (hit : Bool) → ItemRound
  | 0, i, hit => .more i hit
  | fuel + 1, i, hit =>
    match itemRound p c i hit with
    | .more next hit => itemRounds p c fuel next hit
    | .ends scan => .ends scan

section Items

variable {p : Array UInt8} {c : UInt8} {i n : Nat} {hit : Bool}

/-- Reading items is going on from round to round. -/
theorem scanItems_eq_itemRound (p : Array UInt8) (c : UInt8) (fuel i : Nat) (hit : Bool) :
    scanItems p c (fuel + 1) i hit =
      match itemRound p c i hit with
      | .more next hit => scanItems p c fuel next hit
      | .ends scan => scan := by
  -- Both sides are one tree of cases; only what stands at its leaves differs.
  rw [scanItems, itemRound]
  cases p[i]? <;> cases p[i + 1]? <;> cases p[i + 2]? <;> dsimp only <;> split_ifs <;> rfl

/-- **A round** moves on inside the pattern, or it is the last one.  It reads nothing outside. -/
theorem itemRound_cases (p : Array UInt8) (c : UInt8) (i : Nat) (hit : Bool) :
    (∃ next hit', itemRound p c i hit = .more next hit' ∧ i < next ∧ next ≤ p.size) ∨
      ∃ scan, itemRound p c i hit = .ends scan ∧ scan ≠ .strayRead := by
  by_cases inside : i < p.size
  swap
  · exact .inr ⟨.unterminated, by rw [itemRound, if_neg inside], nofun⟩
  rw [itemRound, if_pos inside, Array.getElem?_eq_getElem inside]
  dsimp only
  by_cases closing : p[i] = 0x5D
  · exact .inr ⟨_, if_pos closing, nofun⟩
  rw [if_neg closing]
  by_cases escape : (p[i] = 0x5C && i + 1 < p.size) = true
  · have second : i + 1 < p.size := by
      rw [Bool.and_eq_true, decide_eq_true_eq, decide_eq_true_eq] at escape
      exact escape.2
    rw [if_pos escape, Array.getElem?_eq_getElem second]
    exact .inl ⟨_, _, rfl, by omega, second⟩
  rw [if_neg escape]
  by_cases wide : i + 2 < p.size
  · have second : i + 1 < p.size := by omega
    rw [if_pos wide, Array.getElem?_eq_getElem second, Array.getElem?_eq_getElem wide]
    dsimp only
    split
    · exact .inl ⟨_, _, rfl, by omega, wide⟩
    · exact .inl ⟨_, _, rfl, by omega, inside⟩
  · rw [if_neg wide]
    exact .inl ⟨_, _, rfl, by omega, inside⟩

/-- **The loop ends**: every round that goes on leaves fewer bytes. -/
theorem itemRounds_ends (p : Array UInt8) (c : UInt8) (hit : Bool) (enough : p.size < i + n)
    (pos : 0 < n) : ∃ scan, itemRounds p c n i hit = .ends scan ∧ scan ≠ .strayRead := by
  induction n generalizing i hit with
  | zero => cases pos
  | succ n ih =>
      rw [itemRounds]
      obtain ⟨next, hit', goesOn, forward, inside⟩ | ⟨scan, ended, bounded⟩ := itemRound_cases p c i hit
      · rw [goesOn]
        exact ih hit' (by omega) (by omega)
      · rw [ended]
        exact ⟨scan, rfl, bounded⟩

/-- What the loop ends with is what the scan answers. -/
theorem scanItems_of_ends {fuel : Nat} {scan : ClassScan} (ended : itemRounds p c n i hit = .ends scan)
    (enough : n ≤ fuel) : scanItems p c fuel i hit = scan := by
  induction n generalizing fuel i hit with
  | zero => cases ended
  | succ n ih =>
      obtain ⟨more, rfl⟩ := Nat.exists_eq_add_of_le' enough
      rw [itemRounds] at ended
      rw [← Nat.add_assoc, scanItems_eq_itemRound]
      cases round : itemRound p c i hit with
      | more next hit' =>
          rw [round] at ended
          exact ih ended (by omega)
      | ends found =>
          rw [round] at ended
          cases ended
          rfl

end Items

/-! ### Classes -/

/-- Whether the class with its bracket at `start` is negated, and where its items begin. -/
def itemsStart (p : Array UInt8) (start : Nat) : Bool × Nat :=
  if p[start + 1]? = some 0x5E ∨ p[start + 1]? = some 0x21 then (true, start + 2)
  else (false, start + 1)

namespace ClassScan

/-- What a scan of items means for the whole class. -/
def negatedIf (negated : Bool) : ClassScan → ClassScan
  | closed hit next => closed (hit != negated) next
  | other => other

/-- Where the class ends, if it does. -/
def next? : ClassScan → Option Nat
  | closed _ next => some next
  | _ => none

end ClassScan

section Class

variable {p : Array UInt8} {start : Nat}

/-- The scan of a class is the scan of its items. -/
theorem scanClass_eq_scanItems (p : Array UInt8) (start : Nat) (c : UInt8) :
    scanClass p start c =
      (scanItems p c p.size (itemsStart p start).2 false).negatedIf (itemsStart p start).1 := by
  rw [scanClass, itemsStart]
  by_cases inside : start + 1 < p.size
  · rw [if_pos inside, Array.getElem?_eq_getElem inside]
    by_cases negated : p[start + 1] = 0x5E ∨ p[start + 1] = 0x21
    · simp only [negated, Bool.or_eq_true, decide_eq_true_eq, if_true, Option.some.injEq]
      cases scanItems p c p.size (start + 1 + 1) false <;> simp [ClassScan.negatedIf]
    · simp only [negated, Bool.or_eq_true, decide_eq_true_eq, if_false, Option.some.injEq]
      cases scanItems p c p.size (start + 1) false <;> simp [ClassScan.negatedIf]
  · -- Behind the end there is neither a mark nor an item.
    have behind : p[start + 1]? = none := Array.getElem?_eq_none (Nat.not_lt.mp inside)
    rw [if_neg inside, behind, if_neg (by simp)]
    cases size : p.size with
    | zero => rfl
    | succ n =>
        rw [scanItems, if_neg inside]
        rfl

theorem lt_itemsStart (p : Array UInt8) (start : Nat) : start < (itemsStart p start).2 := by
  rw [itemsStart]
  split
  · exact Nat.lt_add_of_pos_right (by decide)
  · exact Nat.lt_succ_self start

/-- **How the scan of a class goes** that has its bracket at `start`. -/
structure ClassHalts (p : Array UInt8) (start : Nat) : Prop where
  /-- The items are read to their end in no more rounds than there are bytes from the bracket on, and
  what is found at the end is the answer. -/
  ends : start < p.size → ∀ c, ∃ scan,
    itemRounds p c (p.size - start) (itemsStart p start).2 false = .ends scan ∧
      scanClass p start c = scan.negatedIf (itemsStart p start).1
  /-- Nothing outside the pattern is read. -/
  inside : ∀ c, scanClass p start c ≠ .strayRead
  /-- The class ends behind its bracket, and inside the pattern. -/
  forward : ∀ {c hit next}, scanClass p start c = .closed hit next → start < next ∧ next ≤ p.size
  /-- Whether and where it ends does not depend on the byte. -/
  shape : ∀ c d, (scanClass p start c).next? = (scanClass p start d).next?

theorem classHalts (p : Array UInt8) (start : Nat) : ClassHalts p start := by
  refine ⟨fun there c => ?_, fun c => ?_, fun {c hit next} closed => ?_, fun c d => ?_⟩
  · have first := lt_itemsStart p start
    obtain ⟨scan, ended, -⟩ := itemRounds_ends p c false
      (show p.size < (itemsStart p start).2 + (p.size - start) by omega) (by omega)
    refine ⟨scan, ended, ?_⟩
    rw [scanClass_eq_scanItems, scanItems_of_ends ended (Nat.sub_le _ _)]
  · rw [scanClass_eq c rfl]
    cases readClass (p.toList.drop (start + 1)) <;> nofun
  · rw [scanClass_eq c rfl] at closed
    cases read : readClass (p.toList.drop (start + 1)) with
    | none =>
        rw [read] at closed
        cases closed
    | some found =>
        obtain ⟨negated, items, tail⟩ := found
        rw [read] at closed
        cases closed
        have shorter := (readClass_suffix read).length_le
        have left := length_rest (p := p) (i := start + 1) rfl
        have more : start + 1 < p.size := by
          by_contra behind
          rw [List.drop_eq_nil_of_le (by simpa using behind)] at read
          cases read
        omega
  · rw [scanClass_eq c rfl, scanClass_eq d rfl]
    cases readClass (p.toList.drop (start + 1)) <;> rfl

end Class

/-! ### The machine -/

section Machine

variable {p t : Array UInt8} {s : State}

/-- No round reads outside pattern or text, wherever the machine stands. -/
theorem step_ne_strayRead (p t : Array UInt8) (s : State) : step p t s ≠ .strayRead := by
  intro stray
  have round := round_step p t s
  rw [stray] at round
  cases round

/-- **A run has a length.**  Up to there it goes through states inside, and from there on it has its
answer.  Every round of it makes progress. -/
theorem run_course (inside : s.InBounds p t) :
    ∃ n answer, n + s.progress p ≤ rounds p t ∧
      (∀ m < n, ∃ s' : State, run p t m s = .running s' ∧ s'.InBounds p t) ∧
      ∀ m, n ≤ m → run p t m s = .finished answer := by
  -- The induction is on what is left of the progress that can be made.
  induction left : rounds p t - s.progress p using Nat.strongRecOn generalizing s with
  | _ left ih =>
      subst left
      have room := inside.progress_lt
      have round := round_step p t s
      cases next : step p t s with
      | running s' =>
          rw [next] at round
          obtain ⟨inside', further⟩ := inside.round round
          obtain ⟨n, answer, short, through, ended⟩ := ih _ (by omega) inside' rfl
          have goesOn (m : Nat) : run p t (m + 1) s = run p t m s' := by rw [run, next]
          refine ⟨n + 1, answer, by omega, fun m less => ?_, fun m more => ?_⟩
          · cases m with
            | zero => exact ⟨s, rfl, inside⟩
            | succ m =>
                rw [goesOn]
                exact through m (Nat.lt_of_succ_lt_succ less)
          · obtain ⟨m, rfl⟩ := Nat.exists_eq_add_of_le' (Nat.le_trans (Nat.le_add_left 1 n) more)
            rw [goesOn]
            exact ended m (Nat.le_of_succ_le_succ more)
      | finished answer =>
          refine ⟨1, answer, by omega, fun m less => ?_, fun m more => ?_⟩
          · obtain rfl : m = 0 := Nat.lt_one_iff.mp less
            exact ⟨s, rfl, inside⟩
          · obtain ⟨m, rfl⟩ := Nat.exists_eq_add_of_le' more
            rw [run, next]
      | strayRead => exact absurd next (step_ne_strayRead p t s)

/-- **How a run of the machine goes.** -/
structure Halts (p t : Array UInt8) : Prop where
  /-- No round reads outside pattern or text, wherever the machine stands. -/
  inside : ∀ s, step p t s ≠ .strayRead
  /-- There is a number of rounds after which the machine has its answer.  Until then its indices lie in
  pattern and text, or at their ends. -/
  ends : ∃ n ≤ (t.size + 1) * (p.size + 1),
    (∀ m < n, ∃ s, run p t m start = .running s ∧ s.pattern ≤ p.size ∧ s.text ≤ t.size) ∧
    ∀ m, n ≤ m → run p t m start = .finished (accepts p.toList t.toList)

theorem halts (p t : Array UInt8) : Halts p t := by
  obtain ⟨n, answer, short, through, ended⟩ := run_course (State.inBounds_start p t)
  have within : n ≤ rounds p t := Nat.le_of_add_right_le short
  have found : accepts p.toList t.toList = answer := by
    rw [accepts, Array.toArray_toList, Array.toArray_toList, ended _ within]
  refine ⟨step_ne_strayRead p t, n, within, fun m less => ?_, fun m more => ?_⟩
  · obtain ⟨s, running, inside⟩ := through m less
    exact ⟨s, running, inside.pattern, inside.text⟩
  · rw [found]
    exact ended m more

end Machine

/-- **Matching ends, quickly and inside its bounds**, for every pattern and every text, and so does the
scan of a class, wherever it begins. -/
theorem matching_ends (p t : Array UInt8) : Halts p t ∧ ∀ start, ClassHalts p start :=
  ⟨halts p t, classHalts p⟩

end TimedCache.Glob
