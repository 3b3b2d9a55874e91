import TimedCache.Proofs.Deployment.Interlude
import TimedCache.Proofs.Documents
import TimedCache.Proofs.Json.Values
import TimedCache.Proofs.Lifetime

/-!
# Documents survive in a backend

What is stored as a document is **the same value when it is looked up**, as often as one likes, as long as it
has not expired and nobody has altered its key (`Codec.Survives`).

There are two halves.  The backend shows the very bytes that were written (`Deployment.Shows.reach`), and
the reader of a type undoes its writer (`Codec.survives_of_decode`).  The latter is so for documents
without floating-point numbers, for integers of 64 bits, and for lists of texts (`survives`).  A
floating-point number that is not finite is written as `null`, so there is no such law for them.
-/

namespace TimedCache

open Json

namespace Codec

variable {α : Type}

/-- **A value survives.**  On an open store in the process it can be stored under any key and for any
lifetime.  Whatever happens then that leaves the key alone, every look-up before the expiry of the entry
gives the value.  An entry without a lifetime does not expire. -/
def Survives (codec : Codec α) (value : α) : Prop :=
  ∀ (cache : ReadThrough) (deployment : Deployment) (store : Store) (context : Context) (key : Bytes)
    (ttl : Duration), deployment.Serves cache.backend store →
    deployment.standing context = .live →
      let stored := deployment.run (cache.setJson codec context key value ttl)
      stored.1 = .ok () ∧ ∀ (incidents : List Incident) (reading : Context),
        let later := stored.2.reach incidents
        (∀ incident ∈ incidents, incident.Leaves cache.backend.id key) →
        later.standing reading = .live →
        (∀ span, cache.backend.options.lifetime (cache.lifetime ttl) = some span →
          later.wall < Entry.expiry deployment.wall span) →
        (later.run (cache.getJson codec reading key)).1 = .ok value

/-- A value survives if its document is read back. -/
theorem survives_of_decode {codec : Codec α} {value : α}
    (decoded : codec.decode (codec.encode value) = .ok value) : codec.Survives value := by
  intro cache deployment store context key ttl serves live
  obtain ⟨written, shows⟩ :=
    serves.perform_set live key (codec.encode value) (cache.lifetime ttl)
  refine ⟨written, fun incidents reading leaves live' ahead => ?_⟩
  have answered := (shows.reach leaves).perform_get_of_unexpired
    (Entry.isExpired_write_of_ahead ahead) live'
  rw [ReadThrough.getJson_eq]
  refine (congrArg codec.read answered).trans ?_
  show (codec.decode (codec.encode value)).mapError _ = _
  rw [decoded]
  rfl

/-- **What is stored is found again**: documents without floating-point numbers, nested as deep as they
can be read, integers of 64 bits, and lists of texts. -/
theorem survives :
    (∀ value, Regular maxLevels value → FloatFree value → any.Survives value) ∧
      (∀ n, n < TimedCache.word64 → word64.Survives n) ∧
      (∀ items : List Bytes, (∀ item ∈ items, item.isText = true) → texts.Survives items) := by
  refine ⟨fun value regular free => ?_, fun n fits => ?_, fun items all => ?_⟩
  · exact survives_of_decode (decode_value regular free)
  · exact survives_of_decode (decode_text (.word fits fits))
  · have each : List.Forall₂ (Reads Reader.text 126) (items.map Json.str) items := by
      rw [List.forall₂_map_left_iff, List.forall₂_same]
      exact fun item mem => .text (all item mem)
    exact survives_of_decode (decode_text (.list each))

/-- A document with an empty name, with characters that must be escaped and others that need not, with
empty lists and objects, and with the smallest and the largest integer. -/
def awkward : Json :=
  .obj [(utf8 "", .arr [.obj [], .str []]),
    (utf8 "\"\\\n\x01é", .arr [.int (-9223372036854775808), .int 18446744073709551615, .null])]

/-- It is stored for ten milliseconds.  After nine, a sweep, and the deletion of another key, it is
still there. -/
theorem survives_awkward :
    let made := (Deployment.start 1700000000000).addLocal .standard Sweeper.standardInterval
    let cache := ReadThrough.of made.1
    let stored := made.2.run (cache.setJson any .background (utf8 "k") awkward (.ofMillis 10))
    let later := stored.2.reach [.advance (.ofMillis 9), .sweep made.1.id,
      .ask (.perform made.1.id .background (.delete (utf8 "K")))]
    stored.1 = .ok () ∧
      (later.run (cache.getJson any .background (utf8 "k"))).1 = .ok awkward := by
  intro made cache stored later
  have integer : ∀ {n : Int}, -9223372036854775808 ≤ n ∧ n < TimedCache.word64 →
      Regular 125 (.int n) := fun bounds => .int bounds.1 bounds.2
  have regular : Regular maxLevels awkward := by
    refine .obj (List.pairwise_pair.mpr (by decide)) (by decide) (List.forall_mem_cons.mpr
      ⟨.arr ?_, List.forall_mem_singleton.mpr (.arr ?_)⟩)
    · have empty : Regular 125 (.obj []) :=
        .obj List.Pairwise.nil (List.forall_mem_nil _) (List.forall_mem_nil _)
      exact List.forall_mem_cons.mpr ⟨empty, List.forall_mem_singleton.mpr (.str rfl)⟩
    · exact List.forall_mem_cons.mpr ⟨integer (by decide),
        List.forall_mem_cons.mpr ⟨integer (by decide), List.forall_mem_singleton.mpr .null⟩⟩
  have free : FloatFree awkward := by
    refine .obj (List.forall_mem_cons.mpr ⟨.arr ?_, List.forall_mem_singleton.mpr (.arr ?_)⟩)
    · exact List.forall_mem_cons.mpr ⟨.obj (List.forall_mem_nil _),
        List.forall_mem_singleton.mpr (.str [])⟩
    · exact List.forall_mem_cons.mpr ⟨.int _, List.forall_mem_cons.mpr ⟨.int _,
        List.forall_mem_singleton.mpr .null⟩⟩
  have serves := (Deployment.start 1700000000000).serves_addLocal .standard Sweeper.standardInterval
  obtain ⟨done, reads⟩ := survives.1 awkward regular free cache made.2 _ .background (utf8 "k")
    (.ofMillis 10) serves rfl
  refine ⟨done, reads _ .background ?_ (by with_unfolding_all rfl) fun span lives => ?_⟩
  · refine List.forall_mem_cons.mpr ⟨trivial, List.forall_mem_cons.mpr ⟨trivial,
      List.forall_mem_singleton.mpr fun _ => ?_⟩⟩
    decide
  · obtain rfl : Duration.ofMillis 10 = span := Option.some.inj lives
    have wall : later.wall = 1700000000009 := by decide +kernel
    refine lt_of_eq_of_lt wall ?_
    decide

end Codec

end TimedCache
