import TimedCache.Proofs.Glob.Reading

/-!
# The machine decides the token language

The machine keeps only its **latest** star.  Forgetting the earlier ones loses nothing: whatever an
earlier star could still take, the latest star can take instead, because the tokens between the two
have already been matched and can stay where they are (`matches_star_append_star_iff`).

**Rounds.**  `round_step` says what a round does in terms of the tokens ahead.  Bounds, progress and
the answer are all read off it.

**Invariant.**  `State.Tracks` says that the answer is decided by what is ahead: by the tokens from
here on, or, once there is a star, by the tokens behind the star on the text that the star has not
taken yet.

**Progress.**  Every round that goes on raises `State.progress`, which stays below `rounds`; so the
machine always reaches an answer.
-/

namespace TimedCache.Glob

/-! ### Tokens that have been passed -/

/-- Tokens that match the bytes of a text one by one. -/
abbrev Passed (passed : List Token) (eaten : Bytes) : Prop :=
  List.Forall₂ (fun token c => token.accepts c = true) passed eaten

section Passed

variable {passed ts : List Token} {eaten text : Bytes}

/-- A token that matches a byte is not a star. -/
theorem Token.ne_star_of_accepts {token : Token} {c : UInt8} (accepted : token.accepts c = true) :
    token ≠ .star := by
  rintro rfl
  cases accepted

/-- Passed tokens and their bytes can be dropped together. -/
theorem matches_append_iff (passing : Passed passed eaten) :
    Matches (passed ++ ts) (eaten ++ text) ↔ Matches ts text := by
  induction passing with
  | nil => rfl
  | cons accepted _ ih =>
      rw [List.cons_append, List.cons_append,
        matches_cons_iff (Token.ne_star_of_accepts accepted), ih]
      exact and_iff_right accepted

/-- Passed tokens take one byte each, of whatever text. -/
theorem matches_drop_of_append (passing : Passed passed eaten)
    (m : Matches (passed ++ ts) text) : Matches ts (text.drop eaten.length) := by
  induction passing generalizing text with
  | nil => exact m
  | cons accepted _ ih =>
      have byte := Token.ne_star_of_accepts accepted
      cases text with
      | nil => exact absurd m (not_matches_nil byte)
      | cons c text => exact ih ((matches_cons_iff byte).mp m).2

/-- A star may take more. -/
theorem matches_star_of_drop {taken : Nat} (m : Matches (.star :: ts) (text.drop taken)) :
    Matches (.star :: ts) text := by
  obtain ⟨more, m⟩ := matches_star_iff.mp m
  rw [List.drop_drop] at m
  exact matches_star_iff.mpr ⟨_, m⟩

/-- **The latest star is enough.**  With passed tokens between two stars, nothing is lost if the
first star keeps what it has and only the second one takes more. -/
theorem matches_star_append_star_iff (passing : Passed passed eaten) :
    Matches (.star :: (passed ++ .star :: ts)) (eaten ++ text) ↔ Matches (.star :: ts) text := by
  constructor
  · intro m
    obtain ⟨taken, m⟩ := matches_star_iff.mp m
    have later := matches_drop_of_append passing m
    rw [List.drop_drop, Nat.add_comm, ← List.drop_drop, List.drop_left] at later
    exact matches_star_of_drop later
  · intro m
    exact matches_star_of_matches ((matches_append_iff passing).mpr m)

/-- At the end of the text a star can take no more than it has. -/
theorem matches_star_append_nil_iff (passing : Passed passed eaten) :
    Matches (.star :: (passed ++ ts)) eaten ↔ Matches ts [] := by
  constructor
  · intro m
    obtain ⟨taken, m⟩ := matches_star_iff.mp m
    have later := matches_drop_of_append passing m
    rwa [List.drop_drop, List.drop_eq_nil_of_le (Nat.le_add_left _ _)] at later
  · intro m
    have here : Matches (passed ++ ts) (eaten ++ []) := (matches_append_iff passing).mpr m
    rw [List.append_nil] at here
    exact matches_star_of_matches here

end Passed

/-! ### Rounds -/

/-- The tokens from a pattern index on. -/
def ahead (p : Array UInt8) (i : Nat) : List Token :=
  tokens (p.toList.drop i)

@[simp] theorem ahead_zero (p : Array UInt8) : ahead p 0 = tokens p.toList := by
  rw [ahead, List.drop_zero]

/-- Only stars are left exactly if the tokens ahead match the empty text. -/
theorem onlyStars_iff (p : Array UInt8) (i : Nat) :
    onlyStars p i = true ↔ Matches (ahead p i) [] := by
  unfold onlyStars ahead
  induction p.toList.drop i with
  | nil => simp
  | cons a rest ih =>
      by_cases star : a = 0x2A
      · subst star
        rw [tokens_star, matches_star_iff]
        simpa using ih
      · have byte : (firstToken a rest).1 ≠ .star := by
          intro same
          exact star (firstToken_eq_star_iff.mp same)
        rw [tokens_cons]
        simp [star, not_matches_nil byte]

/-- What one round does, in terms of the tokens ahead. -/
inductive Round (p t : Array UInt8) (s : State) : Step → Prop where
  /-- The next token is a star. -/
  | star (inside : s.pattern < p.size)
      (reads : ahead p s.pattern = .star :: ahead p (s.pattern + 1)) :
      Round p t s (.running ⟨s.pattern + 1, s.text, some (s.pattern + 1, s.text)⟩)
  /-- The next token matches the next byte. -/
  | accept {token : Token} {next : Nat} {c : UInt8} {rest : Bytes}
      (text : t.toList.drop s.text = c :: rest) (forward : s.pattern < next)
      (inside : next ≤ p.size) (reads : ahead p s.pattern = token :: ahead p next)
      (accepted : token.accepts c = true) :
      Round p t s (.running ⟨next, s.text + 1, s.star⟩)
  /-- The next byte is refused, and the latest star takes one byte more. -/
  | retry {behind taken : Nat} {c : UInt8} {rest : Bytes}
      (text : t.toList.drop s.text = c :: rest) (star : s.star = some (behind, taken))
      (refused : ¬ Matches (ahead p s.pattern) (c :: rest)) :
      Round p t s (.running ⟨behind, taken + 1, some (behind, taken + 1)⟩)
  /-- The next byte is refused, and there is no star. -/
  | fail {c : UInt8} {rest : Bytes} (text : t.toList.drop s.text = c :: rest) (star : s.star = none)
      (refused : ¬ Matches (ahead p s.pattern) (c :: rest)) :
      Round p t s (.finished false)
  /-- The text is used up. -/
  | finish (text : t.toList.drop s.text = []) : Round p t s (.finished (onlyStars p s.pattern))

/-- A refused byte leads back to the latest star, or to the answer. -/
theorem round_refuse {p t : Array UInt8} {s : State} {c : UInt8} {rest : Bytes}
    (text : t.toList.drop s.text = c :: rest) (moved : move p s.pattern c = .refuse)
    (refused : ¬ Matches (ahead p s.pattern) (c :: rest)) : Round p t s (step p t s) := by
  rw [step, if_pos (lt_size_of_rest text), getElem?_of_rest text]
  dsimp only
  rw [moved]
  cases star : s.star with
  | none => exact .fail text star refused
  | some latest => exact .retry text star refused

/-- Every round is one of the five. -/
theorem round_step (p t : Array UInt8) (s : State) : Round p t s (step p t s) := by
  cases text : t.toList.drop s.text with
  | nil =>
      rw [step, if_neg (Nat.not_lt.mpr (size_le_of_rest_nil text))]
      exact .finish text
  | cons c rest =>
      cases here : p.toList.drop s.pattern with
      | nil =>
          refine round_refuse text (move_of_rest_nil c here) ?_
          simp [ahead, here]
      | cons a behind =>
          have moved := move_eq c here
          have suffix := (firstToken_suffix a behind).trans
            ((List.suffix_cons a behind).trans (rest_suffix here))
          have reads : ahead p s.pattern =
              (firstToken a behind).1 :: ahead p (p.size - (firstToken a behind).2.length) := by
            rw [ahead, here, tokens_cons, ahead, rest_of_suffix suffix]
          by_cases star : (firstToken a behind).1 = .star
          · rw [if_pos star] at moved
            rw [step, if_pos (lt_size_of_rest text), getElem?_of_rest text]
            dsimp only
            rw [moved]
            refine .star (lt_size_of_rest here) ?_
            rw [firstToken_eq_star_iff] at star
            rw [ahead, here, star, tokens_star, ahead, rest_succ here]
          · rw [if_neg star] at moved
            by_cases accepted : (firstToken a behind).1.accepts c = true
            · rw [if_pos accepted] at moved
              rw [step, if_pos (lt_size_of_rest text), getElem?_of_rest text]
              dsimp only
              rw [moved]
              have shorter := (firstToken_suffix a behind).length_le
              have left := length_rest (rest_succ here)
              have inside := lt_size_of_rest here
              exact .accept text (by omega) (Nat.sub_le _ _) reads accepted
            · rw [if_neg accepted] at moved
              refine round_refuse text moved ?_
              rw [reads, matches_cons_iff star]
              exact fun m => accepted m.1

/-! ### Bounds and progress -/

namespace State

variable {p t : Array UInt8} {s : State}

/-- The machine stands inside pattern and text, and the latest star lies behind it. -/
structure InBounds (p t : Array UInt8) (s : State) : Prop where
  pattern : s.pattern ≤ p.size
  text : s.text ≤ t.size
  star : ∀ behind taken, s.star = some (behind, taken) → behind ≤ p.size ∧ taken ≤ s.text

/-- The text index up to which the latest star has taken the text. -/
def taken (s : State) : Nat :=
  match s.star with
  | some (_, taken) => taken
  | none => 0

/-- How far the machine has come: mostly by what the latest star has taken, and between two such
steps by the pattern index. -/
def progress (p : Array UInt8) (s : State) : Nat :=
  s.taken * (p.size + 1) + s.pattern

theorem inBounds_start (p t : Array UInt8) : start.InBounds p t :=
  ⟨Nat.zero_le _, Nat.zero_le _, fun _ _ absent => by cases absent⟩

/-- The latest star has taken no more than the text that has been passed. -/
theorem InBounds.taken_le (inside : s.InBounds p t) : s.taken ≤ s.text := by
  unfold taken
  split
  next behind taken star => exact (inside.star behind taken star).2
  next => exact Nat.zero_le _

/-- Progress never reaches the number of rounds. -/
theorem InBounds.progress_lt (inside : s.InBounds p t) : s.progress p < rounds p t := by
  have pattern := inside.pattern
  have taken : s.taken ≤ t.size := Nat.le_trans inside.taken_le inside.text
  have product := Nat.mul_le_mul_right (p.size + 1) taken
  rw [progress, rounds, Nat.add_mul, Nat.one_mul]
  omega

/-- A round that goes on stays inside and makes progress. -/
theorem InBounds.round (inside : s.InBounds p t) {s' : State} (round : Round p t s (.running s')) :
    s'.InBounds p t ∧ s.progress p < s'.progress p := by
  have pattern := inside.pattern
  cases round with
  | star before reads =>
      refine ⟨⟨before, inside.text, ?_⟩, ?_⟩
      · rintro behind taken same
        cases same
        exact ⟨before, Nat.le_refl _⟩
      · -- The new star has taken no less than the old one, and the pattern index has moved on.
        have product := Nat.mul_le_mul_right (p.size + 1) inside.taken_le
        simp only [progress, taken] at product ⊢
        omega
  | accept here forward before reads accepted =>
      have more := lt_size_of_rest here
      refine ⟨⟨before, more, ?_⟩, ?_⟩
      · intro behind taken latest
        obtain ⟨within, le⟩ := inside.star behind taken latest
        exact ⟨within, Nat.le_succ_of_le le⟩
      · simp only [progress, taken]
        omega
  | @retry behind taken c rest here latest refused =>
      have more := lt_size_of_rest here
      obtain ⟨within, le⟩ := inside.star behind taken latest
      refine ⟨⟨within, Nat.lt_of_le_of_lt le more, ?_⟩, ?_⟩
      · rintro behind taken same
        cases same
        exact ⟨within, Nat.le_refl _⟩
      · -- One byte more outweighs any fall of the pattern index.
        simp only [progress, State.taken, latest, Nat.add_mul, Nat.one_mul]
        omega

/-! ### The answer -/

/-- The answer is decided by what is ahead of the machine. -/
def Tracks (p t : Array UInt8) (s : State) : Prop :=
  match s.star with
  | none => Matches (ahead p 0) t.toList ↔ Matches (ahead p s.pattern) (t.toList.drop s.text)
  | some (behind, taken) =>
    (Matches (ahead p 0) t.toList ↔ Matches (.star :: ahead p behind) (t.toList.drop taken)) ∧
      ∃ passed eaten, Passed passed eaten ∧ ahead p behind = passed ++ ahead p s.pattern ∧
        t.toList.drop taken = eaten ++ t.toList.drop s.text

theorem tracks_start (p t : Array UInt8) : start.Tracks p t := Iff.rfl

/-- A round that goes on does not change what decides the answer. -/
theorem Tracks.round (tracks : s.Tracks p t) {s' : State} (round : Round p t s (.running s')) :
    s'.Tracks p t := by
  cases round with
  | star before reads =>
      refine ⟨?_, [], [], .nil, rfl, rfl⟩
      cases latest : s.star with
      | none =>
          simp only [Tracks, latest] at tracks
          rw [tracks, reads]
      | some star =>
          simp only [Tracks, latest] at tracks
          obtain ⟨decided, passed, eaten, passing, pattern, text⟩ := tracks
          -- What the old star could still take, the new one can take in its place.
          rw [decided, pattern, text, reads, matches_star_append_star_iff passing]
  | @accept token next c rest here forward before reads accepted =>
      cases latest : s.star with
      | none =>
          simp only [Tracks, latest] at tracks ⊢
          rw [tracks, reads, here, matches_cons_iff (Token.ne_star_of_accepts accepted),
            rest_succ here]
          exact and_iff_right accepted
      | some star =>
          simp only [Tracks, latest] at tracks ⊢
          obtain ⟨decided, passed, eaten, passing, pattern, text⟩ := tracks
          refine ⟨decided, passed ++ [token], eaten ++ [c], ?_, ?_, ?_⟩
          · exact List.rel_append passing (.cons accepted .nil)
          · rw [pattern, reads, List.append_assoc, List.singleton_append]
          · rw [text, here, rest_succ here, List.append_assoc, List.singleton_append]
  | @retry behind taken c rest here latest refused =>
      simp only [Tracks, latest] at tracks ⊢
      obtain ⟨decided, passed, eaten, passing, pattern, text⟩ := tracks
      refine ⟨?_, [], [], .nil, rfl, rfl⟩
      -- What the star has taken so far does not lead to a match, so it takes one byte more.
      have stuck : ¬ Matches (ahead p behind) (t.toList.drop taken) := by
        rw [pattern, text, here, matches_append_iff passing]
        exact refused
      cases beyond : t.toList.drop taken with
      | nil => simp [beyond, here] at text
      | cons d tail =>
          rw [beyond] at decided stuck
          rw [decided, matches_star_cons_iff, rest_succ beyond]
          exact or_iff_right stuck

/-- The answer is right. -/
theorem Tracks.answer (tracks : s.Tracks p t) {answer : Bool}
    (round : Round p t s (.finished answer)) :
    answer = true ↔ Matches (tokens p.toList) t.toList := by
  rw [← ahead_zero]
  cases round with
  | fail here latest refused =>
      simp only [Tracks, latest] at tracks
      rw [tracks, here]
      simp [refused]
  | finish here =>
      rw [onlyStars_iff]
      cases latest : s.star with
      | none =>
          simp only [Tracks, latest] at tracks
          rw [tracks, here]
      | some star =>
          simp only [Tracks, latest] at tracks
          obtain ⟨decided, passed, eaten, passing, pattern, text⟩ := tracks
          rw [decided, pattern, text, here, List.append_nil, matches_star_append_nil_iff passing]

end State

/-! ### Runs -/

section Run

variable {p t : Array UInt8}

/-- With enough rounds left the machine reaches an answer. -/
theorem run_finishes {fuel : Nat} {s : State} (inside : s.InBounds p t)
    (enough : rounds p t ≤ s.progress p + fuel) : ∃ answer, run p t fuel s = .finished answer := by
  induction fuel generalizing s with
  | zero => exact absurd inside.progress_lt (Nat.not_lt.mpr enough)
  | succ fuel ih =>
      have round := round_step p t s
      rw [run]
      cases next : step p t s with
      | running s' =>
          rw [next] at round
          obtain ⟨inside', further⟩ := inside.round round
          exact ih inside' (by omega)
      | finished answer => exact ⟨answer, rfl⟩
      | strayRead =>
          rw [next] at round
          cases round

/-- Whatever answer the machine reaches is right. -/
theorem run_answer {fuel : Nat} {s : State} (tracks : s.Tracks p t) {answer : Bool}
    (done : run p t fuel s = .finished answer) :
    answer = true ↔ Matches (tokens p.toList) t.toList := by
  induction fuel generalizing s with
  | zero => cases done
  | succ fuel ih =>
      have round := round_step p t s
      rw [run] at done
      cases next : step p t s with
      | running s' =>
          rw [next] at round done
          exact ih (tracks.round round) done
      | finished found =>
          rw [next] at round done
          cases done
          exact tracks.answer round
      | strayRead =>
          rw [next] at done
          cases done

end Run

/-- A pattern matches the texts that match its tokens. -/
theorem accepts_iff_matches (pattern text : Bytes) :
    accepts pattern text = true ↔ Matches (tokens pattern) text := by
  obtain ⟨answer, done⟩ := run_finishes
    (State.inBounds_start pattern.toArray text.toArray) (Nat.le_add_left _ _)
  have right := run_answer (State.tracks_start pattern.toArray text.toArray) done
  rw [accepts]
  simp only [done]
  exact right

/-- **A pattern matches exactly the texts that can be cut into pieces**, one for each of its
tokens. -/
theorem accepts_iff_exists_pieces (pattern text : Bytes) :
    accepts pattern text = true ↔
      ∃ pieces, List.Forall₂ Token.Takes (tokens pattern) pieces ∧ pieces.flatten = text := by
  rw [accepts_iff_matches, matches_iff_exists_pieces]

example : accepts (utf8 "a*[!x-z]?") (utf8 "abcb1") = true := by decide

end TimedCache.Glob
