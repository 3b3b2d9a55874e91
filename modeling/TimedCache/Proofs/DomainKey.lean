import TimedCache.DomainKey
import TimedCache.Proofs.Glob.Escape
import TimedCache.Proofs.Text.Decimal

/-!
# Keys of the domain do not clash

The ids in a key may be any text, also text that imitates another key or a pattern.  Still different
keys have **different texts**, and each of the two patterns accepts the lists that it is for, and no
other key (`DomainKey.texts_apart`).

**Words.**  A key begins with a word that tells its family.  No word is the beginning of another one
(`Family.eq_of_prefix`), so what follows the word is never taken for a part of it.

**Arguments.**  Behind the word an id stands as it is.  Of the two numbers of a page the first one ends at
a colon, which is no digit.

**Patterns.**  A pattern is a text without special bytes and a star, so it accepts what begins with that
text.  Whether a key does is decided within its word (`prefix_append_iff`).

## Main Definitions

* `DomainKey.Family` — the kinds of keys
* `Family.word`, `DomainKey.arguments` — the two parts of a key
-/

namespace TimedCache

namespace DomainKey

/-! ### Words and arguments -/

/-- The kinds of keys. -/
inductive Family where
  | user
  | usersPage
  | product
  | productPrice
  | productsPage
  | productsByCategory
  | session
  deriving DecidableEq, Repr

/-- What the keys of a family begin with. -/
def Family.word : Family → Bytes
  | user => utf8 "user:"
  | usersPage => utf8 "users:page:"
  | product => utf8 "product:"
  | productPrice => utf8 "product_price:"
  | productsPage => utf8 "products:page:"
  | productsByCategory => utf8 "products:category:"
  | session => utf8 "session:"

/-- No word is the beginning of another one. -/
theorem Family.eq_of_prefix {family other : Family} (front : family.word <+: other.word) :
    family = other := by
  revert front
  cases family <;> cases other <;> decide

/-- The family of a key. -/
def family : DomainKey → Family
  | user _ => .user
  | usersPage _ _ => .usersPage
  | product _ => .product
  | productPrice _ => .productPrice
  | productsPage _ _ => .productsPage
  | productsByCategory _ => .productsByCategory
  | session _ => .session

/-- What follows the word of a key. -/
def arguments : DomainKey → Bytes
  | usersPage page limit | productsPage page limit =>
    natText page ++ 0x3A :: (utf8 "limit:" ++ natText limit)
  | user text | product text | productPrice text | productsByCategory text | session text => text

theorem pageText_eq (page limit : Nat) :
    pageText page limit = utf8 "page:" ++ (natText page ++ 0x3A :: (utf8 "limit:" ++ natText limit)) := by
  rw [pageText, List.append_assoc, List.append_assoc]
  rfl

theorem text_eq (key : DomainKey) : key.text = key.family.word ++ key.arguments := by
  cases key with
  | usersPage page limit | productsPage page limit =>
      rw [text, pageText_eq, ← List.append_assoc]
      rfl
  | user _ | product _ | productPrice _ | productsByCategory _ | session _ => rfl

/-- Within a family, keys can be told by their arguments. -/
theorem eq_of_arguments {key other : DomainKey} (families : key.family = other.family)
    (arguments : key.arguments = other.arguments) : key = other := by
  cases key <;> cases other <;> cases families
  case usersPage.usersPage | productsPage.productsPage =>
    obtain ⟨rfl, limits⟩ := natText_append_colon_inj arguments
    rw [natText_injective (List.append_cancel_left limits)]
  all_goals
    cases (show _ = _ from arguments)
    rfl

/-- **Different keys** have different texts. -/
theorem text_injective : Function.Injective text := by
  intro key other same
  have front : key.family.word <+: other.text := by
    rw [← same, text_eq]
    exact List.prefix_append _ _
  have front' : other.family.word <+: other.text := by
    rw [other.text_eq]
    exact List.prefix_append _ _
  -- Of two beginnings of one text, one is a beginning of the other.
  have families : key.family = other.family := by
    obtain before | behind := List.prefix_or_prefix_of_prefix front front'
    · exact Family.eq_of_prefix before
    · exact (Family.eq_of_prefix behind).symm
  rw [key.text_eq, other.text_eq, families] at same
  exact eq_of_arguments families (List.append_cancel_left same)

/-! ### Patterns -/

/-- A text that does not go beyond the word is found at the beginning of a key if it is found at the
beginning of the word. -/
theorem prefix_text_iff {front : Bytes} {key : DomainKey}
    (within : front <+: key.family.word ∨ ¬key.family.word <+: front) :
    front <+: key.text ↔ front <+: key.family.word := by
  rw [text_eq]
  refine ⟨fun starts => ?_, fun starts => starts.trans (List.prefix_append _ _)⟩
  rcases within with inside | apart
  · exact inside
  · exact (List.prefix_or_prefix_of_prefix starts (List.prefix_append _ _)).resolve_right apart

theorem accepts_usersPattern_iff (key : Bytes) :
    Glob.accepts usersPattern key = true ↔ utf8 "users:" <+: key := by
  rw [usersPattern, ← Glob.accepts_append_star_iff (by decide)]
  rfl

theorem accepts_productsPattern_iff (key : Bytes) :
    Glob.accepts productsPattern key = true ↔ utf8 "products:" <+: key := by
  rw [productsPattern, ← Glob.accepts_append_star_iff (by decide)]
  rfl

theorem accepts_usersPattern_text_iff (key : DomainKey) :
    Glob.accepts usersPattern key.text = true ↔ key.family = .usersPage := by
  rw [accepts_usersPattern_iff, prefix_text_iff]
  all_goals
    cases key.family <;> decide

theorem accepts_productsPattern_text_iff (key : DomainKey) :
    Glob.accepts productsPattern key.text = true ↔
      key.family = .productsPage ∨ key.family = .productsByCategory := by
  rw [accepts_productsPattern_iff, prefix_text_iff]
  all_goals
    cases key.family <;> decide

/-- **Keys do not clash**, and a pattern accepts its lists and no other key. -/
theorem texts_apart :
    (∀ key other : DomainKey, key.text = other.text ↔ key = other) ∧
      (∀ key : DomainKey, Glob.accepts usersPattern key.text = true ↔
        ∃ page limit, key = .usersPage page limit) ∧
      ∀ key : DomainKey, Glob.accepts productsPattern key.text = true ↔
        (∃ page limit, key = .productsPage page limit) ∨
          ∃ category, key = .productsByCategory category := by
  refine ⟨fun key other => text_injective.eq_iff, fun key => ?_, fun key => ?_⟩
  · rw [accepts_usersPattern_text_iff]
    cases key <;> simp [family]
  · rw [accepts_productsPattern_text_iff]
    cases key <;> simp [family]

end DomainKey

end TimedCache
