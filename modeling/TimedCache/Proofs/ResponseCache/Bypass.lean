import TimedCache.Proofs.Deployment.Notes
import TimedCache.Proofs.ResponseCache.Hit
import TimedCache.Proofs.Text.Blank

/-!
# Requests that bypass the cache

A request bypasses the cache for one of four reasons (`CachePolicy.Bypasses`), one of which is that it
demands a fresh response.

**Demands** are directives in the values of `cache-control`: commas separate them, blanks may surround
them, and the case of letters does not count (`Carries`).  Only values that are text are searched for
them (`CachePolicy.demandsFresh_iff`).

**What bypassing means.**  The request is passed on to the handler, nothing is asked but what the handler
asks, and its response is handed on with a tag (`ResponseCache.fresh_of_demand`).  A demand in a value with
other bytes than those of text is overlooked (`ResponseCache.overlooks_demand`).

## Main Definitions

* `Carries` — whether a directive is found in a value
* `CachePolicy.Bypasses` — the reasons to bypass the cache
* `Fresh` — the response of a handler, tagged
-/

namespace TimedCache

open Http

/-! ### Directives -/

/-- One of the pieces of a value, which commas separate, is the directive in some case of letters, with
nothing around it but spaces and tabs. -/
def Carries (value directive : Bytes) : Prop :=
  ∃ (pieces : List Bytes) (left core right : Bytes),
    [0x2C].intercalate pieces = value ∧ (∀ piece ∈ pieces, 0x2C ∉ piece) ∧
      left ++ core ++ right ∈ pieces ∧ (∀ b ∈ left ++ right, b = 0x20 ∨ b = 0x09) ∧
      core.lower = directive

/-- The only blanks in text are spaces and tabs. -/
theorem isBlankByte_iff {value : Bytes} (visible : isVisible value = true) {b : UInt8}
    (mem : b ∈ value) : isBlankByte b = true ↔ b = 0x20 ∨ b = 0x09 := by
  have all : ∀ n : Fin 256, isVisible [UInt8.ofFin n] = true →
      (isBlankByte (UInt8.ofFin n) = true ↔ UInt8.ofFin n = 0x20 ∨ UInt8.ofFin n = 0x09) := by
    decide +kernel
  have alone : isVisible [b] = true :=
    List.all_eq_true.mpr fun other same =>
      List.all_eq_true.mp visible other (List.mem_singleton.mp same ▸ mem)
  exact all b.toFin alone

/-- Spaces and tabs are the same in lower case. -/
theorem lowerByte_blank {b : UInt8} (blank : b = 0x20 ∨ b = 0x09) : lowerByte b = b := by
  rcases blank with rfl | rfl <;> rfl

/-- The pieces of text are text. -/
theorem isVisible_of_mem_splitOn {value piece : Bytes} {separator : UInt8}
    (visible : isVisible value = true) (mem : piece ∈ value.splitOn separator) :
    isVisible piece = true :=
  List.all_eq_true.mpr fun b inside =>
    List.all_eq_true.mp visible b (Bytes.mem_of_mem_splitOn mem b inside).1

/-- A directive without blanks is found by trimming the pieces. -/
theorem Carries.exists_piece {value directive : Bytes} (carries : Carries value directive)
    (visible : isVisible value = true) (solid : ∀ b ∈ directive, ¬(b = 0x20 ∨ b = 0x09)) :
    ∃ piece ∈ value.splitOn 0x2C, piece.trim.lower = directive := by
  obtain ⟨pieces, left, core, right, whole, free, mem, blanks, same⟩ := carries
  -- There is only one way to divide a value into pieces without commas.
  have found : value.splitOn 0x2C = pieces :=
    whole ▸ Bytes.splitOn_intercalate (List.ne_nil_of_mem mem) free
  rw [← found] at mem
  have visible := isVisible_of_mem_splitOn visible mem
  have around : ∀ b ∈ left ++ right, isBlankByte b = true := fun b inside =>
    (isBlankByte_iff visible
      (((List.sublist_append_left left core).append_right right).subset inside)).mpr (blanks b inside)
  have within : ∀ b ∈ core, isBlankByte b = false := by
    intro b inside
    have kept : lowerByte b ∈ directive := same ▸ List.mem_map_of_mem inside
    rw [Bool.eq_false_iff, Ne,
      isBlankByte_iff visible (List.mem_append_left right (List.mem_append_right left inside))]
    intro blank
    rw [lowerByte_blank blank] at kept
    exact solid b kept blank
  exact ⟨_, mem, by rw [Bytes.trim_surrounded (lt_of_isVisible visible) around within, same]⟩

/-- What trimming leaves of a piece is a directive. -/
theorem carries_of_mem_splitOn {value piece : Bytes} (visible : isVisible value = true)
    (mem : piece ∈ value.splitOn 0x2C) : Carries value piece.trim.lower := by
  have visible := isVisible_of_mem_splitOn visible mem
  obtain ⟨left, right, surrounded, blanks⟩ := Bytes.exists_surroundings (lt_of_isVisible visible)
  refine ⟨value.splitOn 0x2C, left, piece.trim, right, Bytes.intercalate_splitOn 0x2C value,
    fun other mem comma => (Bytes.mem_of_mem_splitOn mem _ comma).2 rfl, surrounded ▸ mem,
    fun b inside => (isBlankByte_iff visible ?_).mp (blanks b inside), rfl⟩
  rw [surrounded]
  exact ((List.sublist_append_left left piece.trim).append_right right).subset inside

namespace CachePolicy

/-- The directives that demand a fresh response. -/
def freshDirectives : List Bytes := [utf8 "no-cache", utf8 "no-store"]

theorem solid_of_mem_freshDirectives :
    ∀ directive ∈ freshDirectives, ∀ b ∈ directive, ¬(b = 0x20 ∨ b = 0x09) := by
  decide +kernel

/-- **A fresh response is demanded** exactly if one of the values that are text carries such a
directive. -/
theorem demandsFresh_iff {fields : Fields} :
    demandsFresh fields = true ↔ ∃ value ∈ fields.values (utf8 "cache-control"),
      isVisible value = true ∧ ∃ directive ∈ freshDirectives, Carries value directive := by
  simp only [demandsFresh, directives, List.any_eq_true, List.mem_flatMap, List.mem_filter,
    List.mem_map, Bool.or_eq_true, decide_eq_true_eq]
  constructor
  · rintro ⟨_, ⟨value, ⟨listed, visible⟩, piece, mem, rfl⟩, demands⟩
    have demands : piece.trim.lower ∈ freshDirectives :=
      List.mem_cons.mpr (demands.imp_right List.mem_singleton.mpr)
    exact ⟨value, listed, visible, _, demands, carries_of_mem_splitOn visible mem⟩
  · rintro ⟨value, listed, visible, directive, demands, carries⟩
    obtain ⟨piece, mem, rfl⟩ :=
      carries.exists_piece visible (solid_of_mem_freshDirectives directive demands)
    exact ⟨_, ⟨value, ⟨listed, visible⟩, piece, mem, rfl⟩,
      (List.mem_cons.mp demands).imp_right List.mem_singleton.mp⟩

/-- The reasons for which a request bypasses the cache. -/
inductive Bypasses (policy : CachePolicy) (request : Request) : Prop
  /-- The method is not eligible. -/
  | method (unlisted : request.method ∉ policy.methods)
  /-- The request carries credentials. -/
  | credentials (given : request.fields.values (utf8 "authorization") ≠ [])
  /-- The request demands a fresh response. -/
  | demand {value directive : Bytes} (listed : value ∈ request.fields.values (utf8 "cache-control"))
      (visible : isVisible value = true) (demands : directive ∈ freshDirectives)
      (carries : Carries value directive)
  /-- The policy exempts the request. -/
  | exempt (exempted : policy.exempt request = true)

theorem bypasses_iff {policy : CachePolicy} {request : Request} :
    policy.bypasses request = true ↔ policy.Bypasses request := by
  rw [bypasses, Bool.or_eq_true, Bool.or_eq_true, Bool.or_eq_true, Bool.not_eq_true',
    Fields.contains_iff, demandsFresh_iff]
  constructor
  · rintro (((unlisted | given) | ⟨value, listed, visible, directive, demands, carries⟩) | exempted)
    · refine .method fun mem => ?_
      rw [List.contains_iff_mem.mpr mem] at unlisted
      cases unlisted
    · exact .credentials given
    · exact .demand listed visible demands carries
    · exact .exempt exempted
  · rintro (unlisted | given | ⟨listed, visible, demands, carries⟩ | exempted)
    · exact .inl (.inl (.inl (Bool.eq_false_iff.mpr fun listed =>
        unlisted (List.contains_iff_mem.mp listed))))
    · exact .inl (.inl (.inr given))
    · exact .inl (.inr ⟨_, listed, visible, _, demands, carries⟩)
    · exact .inr exempted

end CachePolicy

/-! ### Passing on -/

/-- The response is the given one, tagged as one that the handler was run for. -/
structure Fresh (given response : Response) : Prop where
  status : response.status = given.status
  body : response.body = given.body
  tag : response.fields.values cacheTag = [utf8 "MISS"]
  /-- All other header fields are as they were, and in the same order. -/
  others : response.fields.without cacheTag = given.fields.without cacheTag

namespace ResponseCache

theorem fresh_tagged (given : Response) : Fresh given (tagged given "MISS") := by
  refine ⟨rfl, rfl, Fields.values_replace_self _ _ _, ?_⟩
  simp [tagged, Fields.replace, Fields.without, List.filter_append]

variable {cache : ResponseCache} {handler : Handler} {request : Request}

theorem wrap_of_bypasses (bypasses : cache.policy.Bypasses request) :
    cache.wrap handler request = (handler request).bind fun given => .done (tagged given "MISS") :=
  if_pos (CachePolicy.bypasses_iff.mpr bypasses)

/-- **A demand for a fresh response is met**, where it stands in a value that is text.  Whatever the
surroundings are, they are asked what the handler asks and nothing else, they are left as the handler
leaves them, and the response is that of the handler. -/
theorem fresh_of_demand (cache : ResponseCache) (handler : Handler) {request : Request}
    {value directive : Bytes} (listed : value ∈ request.fields.values (utf8 "cache-control"))
    (visible : isVisible value = true) (demands : directive = utf8 "no-cache" ∨ directive = utf8 "no-store")
    (carries : Carries value directive) {σ : Type} (worker : Nat) (clock : σ → Nat)
    (answer : (call : Call) → σ → call.Answer × σ) (s : σ) :
    (cache.wrap handler request).notes worker clock answer s =
        (handler request).notes worker clock answer s ∧
      ((cache.wrap handler request).run answer s).2 = ((handler request).run answer s).2 ∧
      Fresh ((handler request).run answer s).1 ((cache.wrap handler request).run answer s).1 := by
  have demands : directive ∈ CachePolicy.freshDirectives := by
    rcases demands with rfl | rfl <;> decide
  rw [wrap_of_bypasses (.demand listed visible demands carries), Program.notes_bind, Program.run_bind]
  exact ⟨List.append_nil _, rfl, fresh_tagged _⟩

/-- A demand among other directives, in odd case and spacing, behind a value that is no text. -/
def demandingRequest : Request :=
  { Visit.sampleRequest "alice" with
    fields := [(utf8 "cache-control", [0xFF]), (utf8 "cache-control", utf8 "max-age=0, No-Store ")] }

theorem carries_demandingRequest : Carries (utf8 "max-age=0, No-Store ") (utf8 "no-store") :=
  ⟨[utf8 "max-age=0", utf8 " No-Store "], utf8 " ", utf8 "No-Store", utf8 " ", by decide +kernel,
    by decide +kernel, by decide +kernel, by decide +kernel, by decide +kernel⟩

/-- What was demanded fresh is not in the store. -/
theorem fresh_of_demand_demandingRequest :
    let handled := Visit.samplePage "secret" demandingRequest
    let visit := Visit.sampleCache.wrap (Visit.samplePage "secret") demandingRequest
    utf8 "max-age=0, No-Store " ∈ demandingRequest.fields.values (utf8 "cache-control") ∧
      isVisible (utf8 "max-age=0, No-Store ") = true ∧
      Carries (utf8 "max-age=0, No-Store ") (utf8 "no-store") ∧
      Fresh (Visit.sampleStart.run handled).1 (Visit.sampleStart.run visit).1 ∧
      ((Visit.sampleStart.run visit).2.store? 0).map (fun store => store.entries.size) = some 0 := by
  have listed : utf8 "max-age=0, No-Store " ∈
      demandingRequest.fields.values (utf8 "cache-control") := by decide +kernel
  have visible : isVisible (utf8 "max-age=0, No-Store ") = true := by decide +kernel
  obtain ⟨-, left, fresh⟩ := fresh_of_demand Visit.sampleCache (Visit.samplePage "secret") listed
    visible (.inr rfl) carries_demandingRequest 0 Deployment.wall Deployment.answer Visit.sampleStart
  refine ⟨listed, visible, carries_demandingRequest, fresh, ?_⟩
  rw [Deployment.run, left]
  rfl

def overlookedValue : Bytes := utf8 "no-store," ++ [0xFF]

def overlookedRequest : Request :=
  { Visit.sampleRequest "alice" with fields := [(utf8 "cache-control", overlookedValue)] }

/-- **A demand is overlooked** where another byte of the value is none of text: the response is stored. -/
theorem overlooks_demand :
    let visit := Visit.sampleCache.wrap (Visit.samplePage "secret") overlookedRequest
    overlookedRequest.method ∈ Visit.sampleCache.policy.methods ∧
      overlookedValue ∈ overlookedRequest.fields.values (utf8 "cache-control") ∧
      isFieldValue overlookedValue = true ∧ Carries overlookedValue (utf8 "no-store") ∧
      ((Visit.sampleStart.run visit).2.store? 0).map (fun store => store.entries.size) = some 1 := by
  refine ⟨by decide +kernel, by decide +kernel, by decide +kernel, ?_, by decide +kernel⟩
  exact ⟨[utf8 "no-store", [0xFF]], [], utf8 "no-store", [], by decide +kernel, by decide +kernel,
    by decide +kernel, by decide +kernel, by decide +kernel⟩

end ResponseCache

end TimedCache
