import Mathlib.Data.List.Forall2
import TimedCache.Glob

/-!
# The token language of glob patterns

What a pattern *means*, apart from how the machine of `TimedCache.Glob` walks through it.  A pattern
is read from left to right into **tokens**; each token but the star stands for one byte, and a star
stands for any byte string.

**Classes.**  A class lists *items*, which are read one after another until a closing bracket stands
where an item would begin.  If that never happens the opening bracket is an ordinary byte, and
reading goes on right behind it.

**Matching.**  A text matches when it can be cut into pieces, one for each token.  `Matches` says
the same by recursion on the tokens, and `matches_iff_exists_pieces` connects the two.

## Main Definitions

* `Token`, `tokens` — the tokens of a pattern
* `Matches` — whether a text matches a list of tokens
* `Token.Takes` — the pieces that a token stands for
-/

namespace TimedCache.Glob

/-! ### Items of a class -/

/-- One item of a class. -/
inductive Item where
  | single (b : UInt8)
  /-- The bytes between the two ends, which may come in either order. -/
  | range (a b : UInt8)
  deriving DecidableEq, Repr

/-- Whether a byte belongs to an item. -/
def Item.covers : Item → UInt8 → Bool
  | single b, c => b = c
  | range a b, c => (a ≤ c && c ≤ b) || (b ≤ c && c ≤ a)

/-- The item that begins with the byte `a`, and what follows it. -/
def firstItem (a : UInt8) (rest : Bytes) : Item × Bytes :=
  if a = 0x5C then
    match rest with
    | escaped :: tail => (.single escaped, tail)
    | [] => (.single a, [])
  else
    match rest with
    | dash :: b :: tail =>
      if dash = 0x2D && b ≠ 0x5D then (.range a b, tail) else (.single a, rest)
    | _ => (.single a, rest)

/-- An item takes its bytes from the front. -/
theorem firstItem_suffix (a : UInt8) (rest : Bytes) : (firstItem a rest).2 <:+ rest := by
  unfold firstItem
  split
  · split
    · exact List.suffix_cons _ _
    · exact List.suffix_refl _
  · split
    · split
      · exact (List.suffix_cons _ _).trans (List.suffix_cons _ _)
      · exact List.suffix_refl _
    · exact List.suffix_refl _

/-- The items up to the closing bracket, and what follows the bracket; none if it is missing. -/
def readItems : Bytes → Option (List Item × Bytes)
  | [] => none
  | a :: rest =>
    if a = 0x5D then some ([], rest)
    else
      have : (firstItem a rest).2.length < rest.length + 1 :=
        Nat.lt_succ_of_le (firstItem_suffix a rest).length_le
      (readItems (firstItem a rest).2).map fun read => ((firstItem a rest).1 :: read.1, read.2)
  termination_by bytes => bytes.length

theorem readItems_nil : readItems [] = none := by
  rw [readItems]

theorem readItems_cons (a : UInt8) (rest : Bytes) :
    readItems (a :: rest) =
      if a = 0x5D then some ([], rest)
      else (readItems (firstItem a rest).2).map fun read =>
        ((firstItem a rest).1 :: read.1, read.2) := by
  rw [readItems]

/-- Items and their bracket are taken from the front. -/
theorem readItems_suffix {bytes rest : Bytes} {items : List Item}
    (read : readItems bytes = some (items, rest)) : rest <:+ bytes := by
  induction bytes using readItems.induct generalizing items with
  | case1 =>
      rw [readItems_nil] at read
      cases read
  | case2 tail =>
      rw [readItems_cons, if_pos rfl] at read
      cases read
      exact List.suffix_cons _ _
  | case3 a tail item shorter ih =>
      rw [readItems_cons, if_neg item, Option.map_eq_some_iff] at read
      obtain ⟨⟨others, behind⟩, inner, same⟩ := read
      cases same
      exact ((ih inner).trans (firstItem_suffix a tail)).trans (List.suffix_cons a tail)

/-- A class without its opening bracket: whether it is negated, its items, and what follows it. -/
def readClass : Bytes → Option (Bool × List Item × Bytes)
  | [] => none
  | mark :: rest =>
    if mark = 0x5E || mark = 0x21 then
      (readItems rest).map fun read => (true, read)
    else (readItems (mark :: rest)).map fun read => (false, read)

/-- A class is taken from the front. -/
theorem readClass_suffix {bytes rest : Bytes} {negated : Bool} {items : List Item}
    (read : readClass bytes = some (negated, items, rest)) : rest <:+ bytes := by
  cases bytes with
  | nil => cases read
  | cons mark tail =>
      rw [readClass] at read
      split at read
      · obtain ⟨found, inner, same⟩ := Option.map_eq_some_iff.mp read
        cases same
        exact (readItems_suffix inner).trans (List.suffix_cons mark tail)
      · obtain ⟨found, inner, same⟩ := Option.map_eq_some_iff.mp read
        cases same
        exact readItems_suffix inner

/-! ### Tokens -/

/-- What a pattern is made of. -/
inductive Token where
  /-- Any byte string. -/
  | star
  /-- Any one byte. -/
  | any
  /-- One given byte. -/
  | literal (b : UInt8)
  /-- One byte that belongs to an item, or, if negated, to none. -/
  | cls (negated : Bool) (items : List Item)
  deriving DecidableEq, Repr

/-- Whether a token matches one byte.  A star is not asked for single bytes. -/
def Token.accepts : Token → UInt8 → Bool
  | star, _ => false
  | any, _ => true
  | literal b, c => b = c
  | cls negated items, c => (items.any fun item => item.covers c) != negated

/-- The token that begins with the byte `a`, and what follows it. -/
def firstToken (a : UInt8) (rest : Bytes) : Token × Bytes :=
  if a = 0x2A then (.star, rest)
  else if a = 0x3F then (.any, rest)
  else if a = 0x5B then
    match readClass rest with
    | some (negated, items, tail) => (.cls negated items, tail)
    | none => (.literal a, rest)
  else if a = 0x5C then
    match rest with
    | escaped :: tail => (.literal escaped, tail)
    | [] => (.literal a, [])
  else (.literal a, rest)

/-- A token takes its bytes from the front. -/
theorem firstToken_suffix (a : UInt8) (rest : Bytes) : (firstToken a rest).2 <:+ rest := by
  unfold firstToken
  split
  · exact List.suffix_refl _
  split
  · exact List.suffix_refl _
  split
  · split
    next negated items tail read => exact readClass_suffix read
    next => exact List.suffix_refl _
  split
  · split
    · exact List.suffix_cons _ _
    · exact List.suffix_refl _
  · exact List.suffix_refl _

/-- The tokens of a pattern. -/
def tokens : Bytes → List Token
  | [] => []
  | a :: rest =>
    have : (firstToken a rest).2.length < rest.length + 1 :=
      Nat.lt_succ_of_le (firstToken_suffix a rest).length_le
    (firstToken a rest).1 :: tokens (firstToken a rest).2
  termination_by bytes => bytes.length

@[simp] theorem tokens_nil : tokens [] = [] := by
  rw [tokens]

theorem tokens_cons (a : UInt8) (rest : Bytes) :
    tokens (a :: rest) = (firstToken a rest).1 :: tokens (firstToken a rest).2 := by
  rw [tokens]

example : tokens (utf8 "[b-a]*[") = [.cls false [.range 0x62 0x61], .star, .literal 0x5B] := by
  cbv

/-- Only the star byte begins a star. -/
theorem firstToken_eq_star_iff {a : UInt8} {rest : Bytes} :
    (firstToken a rest).1 = .star ↔ a = 0x2A := by
  unfold firstToken
  split
  next star => simp [star]
  next other =>
    split
    · simp [other]
    split
    · split <;> simp [other]
    split
    · split <;> simp [other]
    · simp [other]

/-- Behind a star the pattern goes on with the next byte. -/
@[simp] theorem tokens_star (rest : Bytes) : tokens (0x2A :: rest) = .star :: tokens rest := by
  rw [tokens_cons]
  rfl

/-! ### Matching -/

/-- Whether a text matches a list of tokens. -/
def Matches : List Token → Bytes → Prop
  | [], text => text = []
  | token :: tokens, text =>
    (token = .star ∧ ∃ taken, Matches tokens (text.drop taken)) ∨
      ∃ c rest, text = c :: rest ∧ token.accepts c = true ∧ Matches tokens rest

/-- The pieces that a token stands for: a star for any piece, another token for one byte. -/
def Token.Takes (token : Token) (piece : Bytes) : Prop :=
  token = .star ∨ ∃ c, piece = [c] ∧ token.accepts c = true

@[simp] theorem matches_nil_iff {text : Bytes} : Matches [] text ↔ text = [] := Iff.rfl

/-- A star takes some of the text away and leaves the rest to the other tokens. -/
theorem matches_star_iff {ts : List Token} {text : Bytes} :
    Matches (.star :: ts) text ↔ ∃ taken, Matches ts (text.drop taken) := by
  simp [Matches, Token.accepts]

/-- Another token takes the first byte. -/
theorem matches_cons_iff {token : Token} {ts : List Token} {c : UInt8} {text : Bytes}
    (byte : token ≠ .star) :
    Matches (token :: ts) (c :: text) ↔ token.accepts c = true ∧ Matches ts text := by
  constructor
  · rintro (⟨star, -⟩ | ⟨_, _, same, accepted, m⟩)
    · exact absurd star byte
    · cases same
      exact ⟨accepted, m⟩
  · rintro ⟨accepted, m⟩
    exact .inr ⟨c, text, rfl, accepted, m⟩

/-- No token but a star matches the empty text. -/
theorem not_matches_nil {token : Token} {ts : List Token} (byte : token ≠ .star) :
    ¬ Matches (token :: ts) [] := by
  simp [Matches, byte]

/-- A star that takes nothing leaves the whole text. -/
theorem matches_star_of_matches {ts : List Token} {text : Bytes} (m : Matches ts text) :
    Matches (.star :: ts) text :=
  matches_star_iff.mpr ⟨0, m⟩

/-- A star takes one byte more or takes nothing. -/
theorem matches_star_cons_iff {ts : List Token} {c : UInt8} {text : Bytes} :
    Matches (.star :: ts) (c :: text) ↔ Matches ts (c :: text) ∨ Matches (.star :: ts) text := by
  rw [matches_star_iff, matches_star_iff]
  constructor
  · rintro ⟨taken, m⟩
    cases taken with
    | zero => exact .inl m
    | succ taken => exact .inr ⟨taken, m⟩
  · rintro (m | ⟨taken, m⟩)
    · exact ⟨0, m⟩
    · exact ⟨taken + 1, m⟩

/-- A text matches when it can be cut into pieces, one for each token. -/
theorem matches_iff_exists_pieces {ts : List Token} {text : Bytes} :
    Matches ts text ↔ ∃ pieces, List.Forall₂ Token.Takes ts pieces ∧ pieces.flatten = text := by
  induction ts generalizing text with
  | nil => simp [eq_comm]
  | cons token ts ih =>
      constructor
      · rintro (⟨star, taken, m⟩ | ⟨c, rest, rfl, accepted, m⟩)
        · obtain ⟨pieces, takes, cut⟩ := ih.mp m
          exact ⟨text.take taken :: pieces, .cons (.inl star) takes, by
            rw [List.flatten_cons, cut, List.take_append_drop]⟩
        · obtain ⟨pieces, takes, cut⟩ := ih.mp m
          exact ⟨[c] :: pieces, .cons (.inr ⟨c, rfl, accepted⟩) takes, by
            rw [List.flatten_cons, cut, List.singleton_append]⟩
      · rintro ⟨all, cut, rfl⟩
        obtain ⟨piece, pieces, takes, others, rfl⟩ := List.forall₂_cons_left_iff.mp cut
        have rest : Matches ts pieces.flatten := ih.mpr ⟨pieces, others, rfl⟩
        rcases takes with star | ⟨c, rfl, accepted⟩
        · exact .inl ⟨star, piece.length, by simpa using rest⟩
        · exact .inr ⟨c, pieces.flatten, rfl, accepted, rest⟩

end TimedCache.Glob
