import TimedCache.Duration

/-!
# Options of a backend

Every backend is set up with a **default lifetime**, an **advisory size** and a **key namespace**.

**Lifetimes.**  A write that names no lifetime takes the default; if the default is empty too, the
entry never expires.

## Main Definitions

* `Options` — what a backend is set up with
* `Options.lifetime` — how long a write lives
* `Options.fullKey` — the key under which the backend files a logical key
-/

namespace TimedCache

/-- What a backend is set up with. -/
structure Options where
  /-- The lifetime of writes that name none; if it is empty, they never expire. -/
  defaultLifetime : Duration
  /-- A size that is reported but not enforced. -/
  maxSize : Nat
  /-- What stands in front of every key that the backend files. -/
  namespaceText : Bytes
  deriving DecidableEq, Repr, Inhabited

namespace Options

/-- Five minutes, a thousand entries, and a namespace of its own. -/
def standard : Options := ⟨.ofSecs 300, 1000, utf8 "cache:"⟩

/-- How long a write lives that names the lifetime `ttl`; none if it never expires. -/
def lifetime (options : Options) (ttl : Duration) : Option Duration :=
  let ttl := ttl.orDefault options.defaultLifetime
  if ttl.isZero then none else some ttl

/-- The key under which a logical key is filed. -/
def fullKey (options : Options) (key : Bytes) : Bytes :=
  options.namespaceText ++ key

/-- The logical key of a filed key, if it lies in the namespace. -/
def logicalKey? (options : Options) (full : Bytes) : Option Bytes :=
  Bytes.strip? options.namespaceText full

/-- A filed key leads back to its logical key. -/
@[simp] theorem logicalKey?_fullKey (options : Options) (key : Bytes) :
    options.logicalKey? (options.fullKey key) = some key :=
  Bytes.strip?_append options.namespaceText key

/-- Different logical keys are filed under different keys. -/
theorem fullKey_inj (options : Options) {a b : Bytes} :
    options.fullKey a = options.fullKey b ↔ a = b :=
  List.append_right_inj options.namespaceText

end Options

end TimedCache
