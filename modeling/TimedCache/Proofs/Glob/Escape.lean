import TimedCache.Proofs.Glob.Machine
import TimedCache.Remote.Client
import TimedCache.Store.Basic

/-!
# Escaped text in front of a pattern

Escaping turns a text into literal tokens, one for each byte, and it does so **whatever follows**:
no token can reach over the seam, because each escaped byte is a token of its own
(`tokens_escape_append`).  So the pattern behind the seam is read and matched as if it stood alone.

A remote backend relies on this when it sends a pattern behind its escaped namespace, while a local
backend strips the namespace off first and then matches.  Both select the same keys.
-/

namespace TimedCache.Glob

/-- A byte without a meaning of its own is a literal token. -/
theorem firstToken_of_not_isSpecial {b : UInt8} (ordinary : isSpecial b = false) (rest : Bytes) :
    firstToken b rest = (.literal b, rest) := by
  simp only [isSpecial, Bool.or_eq_false_iff, decide_eq_false_iff_not] at ordinary
  obtain ⟨⟨⟨⟨star, any⟩, opening⟩, -⟩, escape⟩ := ordinary
  simp [firstToken, star, any, opening, escape]

/-- An escaped byte is a literal token. -/
theorem firstToken_escape (b : UInt8) (rest : Bytes) :
    firstToken 0x5C (b :: rest) = (.literal b, rest) := rfl

/-- Escaped text is read byte by byte, and what follows it is read on its own. -/
theorem tokens_escape_append (front pattern : Bytes) :
    tokens (escape front ++ pattern) = front.map .literal ++ tokens pattern := by
  induction front with
  | nil => rfl
  | cons b front ih =>
      have split : escape (b :: front) =
          (if isSpecial b then [0x5C, b] else [b]) ++ escape front := by
        rw [escape, List.flatMap_cons, ← escape]
      rw [split, List.map_cons, List.cons_append, ← ih]
      -- Escaped or not, the byte is one token, so no token begins in the front and ends behind it.
      cases special : isSpecial b with
      | true =>
          rw [if_pos rfl, List.append_assoc, List.cons_append, List.singleton_append, tokens_cons,
            firstToken_escape]
      | false =>
          rw [if_neg Bool.false_ne_true, List.append_assoc, List.singleton_append, tokens_cons,
            firstToken_of_not_isSpecial special]

/-- Literal tokens match exactly their bytes. -/
theorem matches_literals_append_iff {front : Bytes} {ts : List Token} {text : Bytes} :
    Matches (front.map .literal ++ ts) text ↔ ∃ key, text = front ++ key ∧ Matches ts key := by
  induction front generalizing text with
  | nil => simp
  | cons b front ih =>
      rw [List.map_cons, List.cons_append]
      cases text with
      | nil =>
          refine iff_of_false (not_matches_nil (by simp)) ?_
          rintro ⟨key, same, -⟩
          cases same
      | cons c text =>
          rw [matches_cons_iff (by simp), ih]
          simp only [Token.accepts, decide_eq_true_eq, List.cons_append, List.cons.injEq]
          constructor
          · rintro ⟨same, key, rfl, m⟩
            exact ⟨key, ⟨same.symm, rfl⟩, m⟩
          · rintro ⟨key, ⟨same, rfl⟩, m⟩
            exact ⟨same.symm, key, rfl, m⟩

/-- Matching behind escaped text is stripping the text off and matching what is left. -/
theorem accepts_escape_append (front pattern text : Bytes) :
    accepts (escape front ++ pattern) text =
      (Bytes.strip? front text).any (accepts pattern) := by
  rw [Bool.eq_iff_iff, accepts_iff_matches, tokens_escape_append, matches_literals_append_iff,
    Option.any_eq_true]
  simp only [Bytes.strip?_eq_some_iff, accepts_iff_matches]

/-- The empty pattern matches the empty text only. -/
theorem accepts_nil_iff (text : Bytes) : accepts [] text = true ↔ text = [] := by
  rw [accepts_iff_matches, tokens_nil, matches_nil_iff]

/-- A single star matches every text. -/
@[simp] theorem accepts_star (text : Bytes) : accepts (utf8 "*") text = true := by
  have star : utf8 "*" = [0x2A] := by decide
  rw [accepts_iff_matches, star, tokens_star, tokens_nil, matches_star_iff]
  exact ⟨text.length, List.drop_length⟩

/-- A star behind text without special bytes matches whatever begins with that text. -/
theorem accepts_append_star_iff {front : Bytes} (plain : escape front = front) (text : Bytes) :
    accepts (front ++ utf8 "*") text = true ↔ front <+: text := by
  have escaped : accepts (front ++ utf8 "*") text = accepts (escape front ++ utf8 "*") text := by
    rw [plain]
  rw [escaped, accepts_escape_append, Option.any_eq_true]
  simp only [Bytes.strip?_eq_some_iff, accepts_star, and_true]
  exact exists_congr fun rest => eq_comm

/-- A local backend selects what the pattern accepts behind the escaped namespace. -/
theorem selects_eq_accepts (store : Store) (pattern full : Bytes) :
    store.selects (accepts pattern) full =
      accepts (escape store.options.namespaceText ++ pattern) full := by
  rw [accepts_escape_append, Store.selects, Options.logicalKey?]
  cases Bytes.strip? store.options.namespaceText full with
  | none => rfl
  | some key => rfl

/-- **Escaped text in front of a pattern matches itself and nothing else.**  What the pattern behind
it sees is the rest of the text, so the pattern that a remote backend sends selects the keys that a
local backend with the same options selects, and escaped text alone matches only itself. -/
theorem accepts_escape_append_iff :
    (∀ front pattern text : Bytes,
      accepts (escape front ++ pattern) text = true ↔
        ∃ key, text = front ++ key ∧ accepts pattern key = true) ∧
    (∀ (store : Store) (client : Remote.Client) (pattern full : Bytes),
      accepts (({ client with options := store.options }).namespacedPattern pattern) full =
        store.selects (accepts pattern) full) ∧
    ∀ text other : Bytes, accepts (escape text) other = true ↔ other = text := by
  refine ⟨fun front pattern text => ?_, fun store client pattern full => ?_,
    fun text other => ?_⟩
  · rw [accepts_escape_append, Option.any_eq_true]
    simp only [Bytes.strip?_eq_some_iff]
  · rw [selects_eq_accepts, Remote.Client.namespacedPattern]
  · rw [← List.append_nil (escape text), accepts_escape_append, Option.any_eq_true]
    simp only [Bytes.strip?_eq_some_iff, accepts_nil_iff]
    constructor
    · rintro ⟨key, rfl, rfl⟩
      exact List.append_nil text
    · rintro rfl
      exact ⟨[], (List.append_nil other).symm, rfl⟩

end TimedCache.Glob
