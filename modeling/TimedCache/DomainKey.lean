import TimedCache.Text.Decimal

/-!
# Keys of the domain

The logical keys of users, products and sessions, and the **patterns** that match all cached lists
of users and all cached lists of products.

## Main Definitions

* `DomainKey` — what is cached, with its arguments
* `DomainKey.text` — the logical key
* `DomainKey.usersPattern`, `DomainKey.productsPattern` — the patterns of lists
-/

namespace TimedCache

/-- What is cached. -/
inductive DomainKey where
  | user (id : Bytes)
  | usersPage (page limit : Nat)
  | product (id : Bytes)
  | productPrice (id : Bytes)
  | productsPage (page limit : Nat)
  | productsByCategory (category : Bytes)
  | session (id : Bytes)
  deriving DecidableEq, Repr

namespace DomainKey

/-- The part of a key that tells the page of a list. -/
def pageText (page limit : Nat) : Bytes :=
  utf8 "page:" ++ natText page ++ utf8 ":limit:" ++ natText limit

/-- The logical key. -/
def text : DomainKey → Bytes
  | user id => utf8 "user:" ++ id
  | usersPage page limit => utf8 "users:" ++ pageText page limit
  | product id => utf8 "product:" ++ id
  | productPrice id => utf8 "product_price:" ++ id
  | productsPage page limit => utf8 "products:" ++ pageText page limit
  | productsByCategory category => utf8 "products:category:" ++ category
  | session id => utf8 "session:" ++ id

/-- Matches every list of users. -/
def usersPattern : Bytes := utf8 "users:*"

/-- Matches every list of products. -/
def productsPattern : Bytes := utf8 "products:*"

end DomainKey

end TimedCache
