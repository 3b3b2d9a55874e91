import TimedCache.ReadThrough

/-!
# Documents in a backend

A document is looked up with one question to the backend (`ReadThrough.getJson_eq`).  Reading through
also computes it where the look-up was in vain, and stores what was computed with one question more
(`ReadThrough.getOrSetJson_eq`).

## Main Definitions

* `Codec.read` — what a look-up gives
* `Codec.readBack` — what is returned of a value that was computed
-/

namespace TimedCache

/-- The value that a look-up gives. -/
def Codec.read {α : Type} (codec : Codec α) : Except CacheError Bytes → Except CacheError α
  | .error failure => .error failure
  | .ok data => (codec.decode data).mapError .undecodable

/-- What is read from the document of a value: the value, if it can be read back. -/
def Codec.readBack {α : Type} (codec : Codec α) (value : α) : Except CacheError α :=
  codec.read (.ok (codec.encode value))

/-- Bytes are read as a value exactly if they decode to it. -/
theorem Codec.read_eq_ok_iff {α : Type} {codec : Codec α} {data : Bytes} {value : α} :
    codec.read (.ok data) = .ok value ↔ codec.decode data = .ok value := by
  rw [Codec.read]
  cases codec.decode data with
  | error fault => exact ⟨nofun, nofun⟩
  | ok other =>
      show Except.ok other = Except.ok value ↔ _
      rw [Except.ok.injEq, Except.ok.injEq]

/-- Whether bytes can be read or not, they are not read as a failure to compute. -/
theorem Codec.read_ne_computeFailed {α : Type} (codec : Codec α) (data reason : Bytes) :
    codec.read (.ok data) ≠ .error (.computeFailed reason) := by
  rw [Codec.read]
  cases codec.decode data with
  | error fault => exact nofun
  | ok value => exact nofun

namespace ReadThrough

variable {α : Type} (cache : ReadThrough) (codec : Codec α) (context : Context) (key : Bytes)

theorem getJson_eq : cache.getJson codec context key =
    .ask (.perform cache.backend.id context (.get key)) fun answer => .done (codec.read answer) := by
  refine congrArg (Program.ask _) (funext fun answer => ?_)
  cases answer with
  | error failure => rfl
  | ok data =>
      simp only [Program.bind_done, Codec.read]
      cases codec.decode data <;> rfl

/-- What is done once a value was computed, or could not be. -/
def afterCompute : Except Bytes (α × Duration) → Program (Except CacheError α)
  | .error reason => .done (.error (.computeFailed reason))
  | .ok (value, ttl) =>
    .ask (.perform cache.backend.id context (.set key (codec.encode value) (cache.lifetime ttl)))
      fun _ => .done (codec.readBack value)

/-- What is done once a document was looked up. -/
def afterLookup (compute : Compute (α × Duration)) :
    Except CacheError α → Program (Except CacheError α)
  | .ok value => .done (.ok value)
  | .error _ => compute.bind (cache.afterCompute codec context key)

theorem getOrSetJson_eq (compute : Compute (α × Duration)) :
    cache.getOrSetJson codec context key compute =
      .ask (.perform cache.backend.id context (.get key)) fun answer =>
        cache.afterLookup codec context key compute (codec.read answer) := by
  have looked : cache.getOrSetJson codec context key compute =
      (cache.getJson codec context key).bind (cache.afterLookup codec context key compute) := by
    refine congrArg (Program.bind _) (funext fun outcome => ?_)
    cases outcome with
    | ok value => rfl
    | error failure =>
        refine congrArg compute.bind (funext fun outcome => ?_)
        cases outcome with
        | error reason => rfl
        | ok computed =>
            refine congrArg (Program.ask _) (funext fun answer => ?_)
            simp only [Program.bind_done, Codec.readBack, Codec.read]
            cases codec.decode (codec.encode computed.1) <;> rfl
  rw [looked, getJson_eq]
  rfl

end ReadThrough

end TimedCache
