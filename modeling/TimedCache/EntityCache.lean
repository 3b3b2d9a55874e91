import TimedCache.Attempt
import TimedCache.DomainKey
import TimedCache.ReadThrough

/-!
# Caching users, products and sessions

Entities are read through the cache under the keys of the domain, each with the lifetime that a
**policy** gives to its kind.  When an entity changes, its own key is deleted and all cached lists
that it may be part of are invalidated; all of this is attempted even if a part fails.

## Main Definitions

* `LifetimePolicy` — the lifetime of each kind of entity
* `EntityCache` — a backend with a policy
* `EntityCache.user`, `EntityCache.product`, … — read an entity or load it
* `EntityCache.invalidateUser`, `EntityCache.invalidateProduct` — forget what a change makes stale
-/

namespace TimedCache

/-- The lifetime of each kind of entity. -/
structure LifetimePolicy where
  user : Duration
  userList : Duration
  product : Duration
  productPrice : Duration
  productList : Duration
  session : Duration
  deriving DecidableEq, Repr, Inhabited

/-- Short lifetimes for what changes often, long ones for what hardly does. -/
def LifetimePolicy.standard : LifetimePolicy where
  user := .ofSecs 600
  userList := .ofSecs 300
  product := .ofSecs 3600
  productPrice := .ofSecs 60
  productList := .ofSecs 300
  session := .ofSecs 1800

/-- A backend with a policy. -/
structure EntityCache where
  backend : Backend
  policy : LifetimePolicy
  deriving DecidableEq, Repr, Inhabited

namespace EntityCache

variable {α : Type}

/-- The documents of the backend. -/
def documents (cache : EntityCache) : ReadThrough := .of cache.backend

/-- Reads an entity, or loads and stores it. -/
def cached (cache : EntityCache) (codec : Codec α) (context : Context) (key : DomainKey)
    (ttl : Duration) (load : Compute α) : Program (Except CacheError α) :=
  cache.documents.getOrSetJson codec context key.text
    (load.bind fun result => .done (result.map fun value => (value, ttl)))

/-! ### Users -/

/-- A user. -/
def user (cache : EntityCache) (codec : Codec α) (context : Context) (id : Bytes)
    (load : Compute α) : Program (Except CacheError α) :=
  cache.cached codec context (.user id) cache.policy.user load

/-- A page of the list of users. -/
def usersPage (cache : EntityCache) (codec : Codec α) (context : Context) (page limit : Nat)
    (load : Compute α) : Program (Except CacheError α) :=
  cache.cached codec context (.usersPage page limit) cache.policy.userList load

/-! ### Products -/

/-- A product. -/
def product (cache : EntityCache) (codec : Codec α) (context : Context) (id : Bytes)
    (load : Compute α) : Program (Except CacheError α) :=
  cache.cached codec context (.product id) cache.policy.product load

/-- The price of a product. -/
def productPrice (cache : EntityCache) (codec : Codec α) (context : Context) (id : Bytes)
    (load : Compute α) : Program (Except CacheError α) :=
  cache.cached codec context (.productPrice id) cache.policy.productPrice load

/-- A page of the list of products. -/
def productsPage (cache : EntityCache) (codec : Codec α) (context : Context) (page limit : Nat)
    (load : Compute α) : Program (Except CacheError α) :=
  cache.cached codec context (.productsPage page limit) cache.policy.productList load

/-! ### Forgetting -/

/-- Deletes all keys and then invalidates all patterns, even if some of it fails. -/
def forgetAll (cache : EntityCache) (context : Context) (keys patterns : List Bytes) :
    Program (Except CacheError Unit) :=
  Program.attemptAll
    ((keys.map fun key => Program.perform cache.backend.id context (.delete key))
      ++ patterns.map fun pattern =>
        (Program.perform cache.backend.id context (.invalidate pattern)).forget)

/-- Forgets a user and all lists of users. -/
def invalidateUser (cache : EntityCache) (context : Context) (id : Bytes) :
    Program (Except CacheError Unit) :=
  cache.forgetAll context [(DomainKey.user id).text] [DomainKey.usersPattern]

/-- Forgets a product, its price, and all lists of products. -/
def invalidateProduct (cache : EntityCache) (context : Context) (id : Bytes) :
    Program (Except CacheError Unit) :=
  cache.forgetAll context [(DomainKey.product id).text, (DomainKey.productPrice id).text]
    [DomainKey.productsPattern]

/-! ### Sessions -/

/-- Stores a session. -/
def putSession (cache : EntityCache) (codec : Codec α) (context : Context) (id : Bytes)
    (session : α) : Program (Except CacheError Unit) :=
  cache.documents.setJson codec context (DomainKey.session id).text session cache.policy.session

/-- A session. -/
def getSession (cache : EntityCache) (codec : Codec α) (context : Context) (id : Bytes) :
    Program (Except CacheError α) :=
  cache.documents.getJson codec context (DomainKey.session id).text

/-- Removes a session. -/
def dropSession (cache : EntityCache) (context : Context) (id : Bytes) :
    Program (Except CacheError Unit) :=
  Program.perform cache.backend.id context (.delete (DomainKey.session id).text)

/-! ### Any key -/

/-- What the backend tells about itself. -/
def stats (cache : EntityCache) (context : Context) : Program (Except CacheError Report) :=
  Program.perform cache.backend.id context .stats

/-- Removes everything. -/
def flush (cache : EntityCache) (context : Context) : Program (Except CacheError Unit) :=
  Program.perform cache.backend.id context .flush

/-- Removes every key that a pattern matches, and counts them. -/
def invalidate (cache : EntityCache) (context : Context) (pattern : Bytes) :
    Program (Except CacheError Nat) :=
  Program.perform cache.backend.id context (.invalidate pattern)

/-- Stores a document under any key. -/
def setValue (cache : EntityCache) (context : Context) (key : Bytes) (value : Json)
    (ttl : Duration) : Program (Except CacheError Unit) :=
  cache.documents.setJson .any context key value ttl

/-- The document under any key. -/
def getValue (cache : EntityCache) (context : Context) (key : Bytes) :
    Program (Except CacheError Json) :=
  cache.documents.getJson .any context key

/-- Removes any key. -/
def deleteValue (cache : EntityCache) (context : Context) (key : Bytes) :
    Program (Except CacheError Unit) :=
  Program.perform cache.backend.id context (.delete key)

end EntityCache

end TimedCache
