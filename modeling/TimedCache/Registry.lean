import TimedCache.Attempt
import TimedCache.Engine

/-!
# Registries

A registry knows backends **by name**.  The same backend may be registered under several names;
registering under a name again replaces what was registered there.

**Chains.**  A chain of names is read from front to back until one backend has the key; names that
are not registered and backends that fail are skipped.  A write through a chain goes to every
backend, whatever happens on the way.

## Main Definitions

* `Registry` — backends by name
* `Registry.find` — the backend of a name
* `Registry.getThrough`, `Registry.writeThrough` — reads and writes along a chain
* `Registry.closeAll` — closes every backend
-/

namespace TimedCache

/-- Backends by name, and options of the registry itself. -/
structure Registry where
  backends : Table Backend
  options : Options
  deriving Inhabited

namespace Registry

/-- A registry without backends. -/
def empty (options : Options) : Registry := ⟨.empty, options⟩

/-- Registers a backend under a name. -/
def register (registry : Registry) (name : Bytes) (backend : Backend) : Registry :=
  { registry with backends := registry.backends.insert name backend }

/-- The failure of a name that is not registered. -/
def unregistered (name : Bytes) : CacheError :=
  .notFound (utf8 "cache '" ++ name ++ utf8 "'")

/-- The backend of a name. -/
def find (registry : Registry) (name : Bytes) : Except CacheError Backend :=
  match registry.backends.find? name with
  | some backend => .ok backend
  | none => .error (unregistered name)

/-- The registered names in ascending order. -/
def names (registry : Registry) : List Bytes :=
  Bytes.sorted registry.backends.keys

/-- A key in the namespace of the registry. -/
def cacheKey (registry : Registry) (key : Bytes) : Bytes :=
  registry.options.fullKey key

/-- Closes every registered backend, even if some fail. -/
def closeAll (registry : Registry) : Program (Except CacheError Unit) :=
  Program.attemptAll
    (registry.backends.pairs.map fun pair => Program.perform pair.2.id .background .close)

/-- The value of a key in the first backend of a chain that has it. -/
def getThrough (registry : Registry) (context : Context) (key : Bytes) :
    (names : List Bytes) → Program (Except CacheError Bytes)
  | [] => .done (.error (.notFound key))
  | name :: names =>
    match registry.find name with
    | .error _ => getThrough registry context key names
    | .ok backend =>
      (Program.perform backend.id context (.get key)).bind fun
        | .ok value => .done (.ok value)
        | .error _ => getThrough registry context key names

/-- Writes a value to every backend of a chain. -/
def writeThrough (registry : Registry) (context : Context) (names : List Bytes)
    (key value : Bytes) (ttl : Duration) : Program (Except CacheError Unit) :=
  Program.attemptAll (names.map fun name =>
    match registry.find name with
    | .error failure => .done (.error failure)
    | .ok backend => Program.perform backend.id context (.set key value ttl))

end Registry

end TimedCache
