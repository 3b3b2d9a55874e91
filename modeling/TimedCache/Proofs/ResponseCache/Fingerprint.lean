import Mathlib.Data.List.Basic
import Mathlib.Data.Set.Function
import TimedCache.Proofs.Bytes
import TimedCache.ResponseCache.Fingerprint

/-!
# Fingerprints tell requests apart

Two requests have one fingerprint exactly if they agree in all that a fingerprint looks at
(`Fingerprint.key_eq_iff`): method, path, query, the values of every chosen header field, and the
caller.

**Digests.**  Of the digest only one thing is needed: that it has no collision on the messages in
question.  The hexadecimal text of a digest determines the digest (`Bytes.hex_injective`).

**Messages.**  A message is a concatenation of fields, and it is read back from the front: a field
determines its tag, its content and where it ends, because its length is written before it
(`field_append_inj`).  So a message determines the list of its parts, whatever bytes the parts are
made of (`eq_of_flatMap_field_eq`).

**Parts.**  The parts of a request are told apart by their tags.  The chosen header fields come as
pairs of a name and a value, and under a name that is chosen several times all values come as often
(`values_chosen`).
-/

namespace TimedCache

/-- Every part of the request is shorter than 2^64 bytes, so that its length fits into eight
bytes. -/
structure Http.Request.Fits (request : Http.Request) : Prop where
  method : request.method.length < word64
  path : request.target.path.length < word64
  query : ∀ query ∈ request.target.query, query.length < word64
  fields : ∀ field ∈ request.fields, field.1.length < word64 ∧ field.2.length < word64
  user : ∀ user ∈ request.user, user.length < word64

namespace Fingerprint

open Http

/-! ### Fields are read back -/

/-- **A field determines where it ends.** -/
theorem field_append_inj {tag tag' : UInt8} {content content' rest rest' : Bytes}
    (short : content.length < word64) (short' : content'.length < word64)
    (same : field tag content ++ rest = field tag' content' ++ rest') :
    tag = tag' ∧ content = content' ∧ rest = rest' := by
  simp only [field, List.cons_append, List.append_assoc] at same
  obtain ⟨tags, behind⟩ := List.cons.inj same
  obtain ⟨lengths, behind⟩ := List.append_inj behind
    ((Bytes.length_littleEndian 8 _).trans (Bytes.length_littleEndian 8 _).symm)
  have length : content.length = content'.length :=
    Bytes.littleEndian_inj (by simpa [word64] using short) (by simpa [word64] using short') lengths
  obtain ⟨contents, rests⟩ := List.append_inj behind length
  exact ⟨tags, contents, rests⟩

/-- A message determines its fields. -/
theorem eq_of_flatMap_field_eq {parts parts' : List (UInt8 × Bytes)}
    (short : ∀ part ∈ parts, part.2.length < word64)
    (short' : ∀ part ∈ parts', part.2.length < word64)
    (same : (parts.flatMap fun part => field part.1 part.2) =
      parts'.flatMap fun part => field part.1 part.2) : parts = parts' := by
  induction parts generalizing parts' with
  | nil =>
      cases parts' with
      | nil => rfl
      | cons part' parts' => cases same
  | cons part parts ih =>
      cases parts' with
      | nil => cases same
      | cons part' parts' =>
          obtain ⟨tag, content, rest⟩ := field_append_inj
            (short part List.mem_cons_self) (short' part' List.mem_cons_self) same
          have parts := ih (fun p mem => short p (List.mem_cons_of_mem _ mem))
            (fun p mem => short' p (List.mem_cons_of_mem _ mem)) rest
          rw [parts, Prod.ext tag content]

/-! ### The parts of a request -/

/-- The chosen header fields: each chosen name with each of its values. -/
def chosen (vary : List Bytes) (request : Request) : Fields :=
  vary.flatMap fun name => (request.fields.values name).map fun value => (name, value)

/-- The two parts of one header field. -/
def headerParts (header : Bytes × Bytes) : List (UInt8 × Bytes) :=
  [(0x48, header.1), (0x56, header.2)]

/-- The parts of a request, each with its tag. -/
def parts (vary : List Bytes) (request : Request) : List (UInt8 × Bytes) :=
  (0x4D, request.method) :: (0x50, request.target.path) ::
    (request.target.query.toList.map (Prod.mk 0x51)
      ++ (chosen vary request).flatMap headerParts
      ++ request.user.toList.map (Prod.mk 0x55))

/-- A message is the concatenation of the fields of all parts. -/
theorem encode_eq (vary : List Bytes) (request : Request) :
    encode vary request = (parts vary request).flatMap fun part => field part.1 part.2 := by
  have header : (fun part : Bytes × Bytes => headerField part.1 part.2) =
      fun part => (headerParts part).flatMap fun part => field part.1 part.2 := by
    funext part
    simp [headerField, headerParts]
  have headers : (vary.flatMap fun name => (request.fields.values name).flatMap (headerField name)) =
      (chosen vary request).flatMap fun part => headerField part.1 part.2 := by
    simp only [chosen, List.flatMap_assoc, List.flatMap_map]
  rw [encode, headers, header]
  simp only [parts, List.flatMap_cons, List.flatMap_append, List.flatMap_assoc, List.flatMap_map,
    List.append_assoc]

theorem short_of_fits {request : Request} (fits : request.Fits) (vary : List Bytes) :
    ∀ part ∈ parts vary request, part.2.length < word64 := by
  intro part mem
  simp only [parts, List.mem_cons, List.mem_append, List.mem_map, List.mem_flatMap,
    Option.mem_toList, chosen, headerParts, Fields.values, List.mem_filter] at mem
  obtain rfl | rfl | (⟨query, there, rfl⟩ | ⟨header, there, mem⟩) | ⟨user, there, rfl⟩ := mem
  · exact fits.method
  · exact fits.path
  · exact fits.query query there
  · obtain ⟨name, -, value, ⟨field, ⟨there, same⟩, rfl⟩, rfl⟩ := there
    have name_eq : field.1 = name := of_decide_eq_true same
    obtain rfl | rfl | nothing := mem
    · exact name_eq ▸ (fits.fields field there).1
    · exact (fits.fields field there).2
    · cases nothing
  · exact fits.user user there

/-- The contents of the parts with a tag. -/
def tagged (tag : UInt8) (parts : List (UInt8 × Bytes)) : List Bytes :=
  (parts.filter fun part => part.1 = tag).map Prod.snd

theorem tagged_cons (tag other : UInt8) (content : Bytes) (parts : List (UInt8 × Bytes)) :
    tagged tag ((other, content) :: parts) =
      if other = tag then content :: tagged tag parts else tagged tag parts := by
  by_cases same : other = tag <;> simp [tagged, same]

theorem tagged_append (tag : UInt8) (parts parts' : List (UInt8 × Bytes)) :
    tagged tag (parts ++ parts') = tagged tag parts ++ tagged tag parts' := by
  simp [tagged]

theorem tagged_map (tag other : UInt8) (contents : List Bytes) :
    tagged tag (contents.map (Prod.mk other)) = if other = tag then contents else [] := by
  by_cases same : other = tag <;> induction contents <;> simp_all [tagged]

/-- Header fields have tags of their own. -/
theorem tagged_headers {tag : UInt8} (name : tag ≠ 0x48) (value : tag ≠ 0x56)
    (headers : List (Bytes × Bytes)) : tagged tag (headers.flatMap headerParts) = [] := by
  induction headers with
  | nil => rfl
  | cons header headers ih =>
      rw [List.flatMap_cons, tagged_append, ih, headerParts, tagged_cons, if_neg name.symm,
        tagged_cons, if_neg value.symm]
      rfl

/-- An optional part is determined by the list of it. -/
theorem eq_of_toList_eq {α : Type} {a b : Option α} (same : a.toList = b.toList) : a = b := by
  simpa using congrArg List.head? same

theorem tagged_query (vary : List Bytes) (request : Request) :
    tagged 0x51 (parts vary request) = request.target.query.toList := by
  have headers := @tagged_headers 0x51 (by decide) (by decide) (chosen vary request)
  simp [parts, tagged_cons, tagged_append, tagged_map, headers]

theorem tagged_user (vary : List Bytes) (request : Request) :
    tagged 0x55 (parts vary request) = request.user.toList := by
  have headers := @tagged_headers 0x55 (by decide) (by decide) (chosen vary request)
  simp [parts, tagged_cons, tagged_append, tagged_map, headers]

/-- The two parts of each header field determine the header fields. -/
theorem flatMap_headerParts_injective :
    Function.Injective fun headers : List (Bytes × Bytes) => headers.flatMap headerParts := by
  intro headers headers' same
  induction headers generalizing headers' with
  | nil =>
      cases headers' with
      | nil => rfl
      | cons header' headers' => cases same
  | cons header headers ih =>
      cases headers' with
      | nil => cases same
      | cons header' headers' =>
          obtain ⟨name, behind⟩ := List.cons.inj same
          obtain ⟨value, rest⟩ := List.cons.inj behind
          rw [Prod.ext (Prod.mk.inj name).2 (Prod.mk.inj value).2, ih rest]

/-- The parts of a request determine its chosen header fields. -/
theorem chosen_eq_of_parts_eq {vary : List Bytes} {a b : Request}
    (same : parts vary a = parts vary b) : chosen vary a = chosen vary b := by
  have query := congrArg (tagged 0x51) same
  have user := congrArg (tagged 0x55) same
  rw [tagged_query, tagged_query] at query
  rw [tagged_user, tagged_user] at user
  simp only [parts, query, user, List.cons.injEq, List.append_left_inj, List.append_right_inj]
    at same
  exact flatMap_headerParts_injective same.2.2

/-! ### Chosen header fields -/

/-- Under a name come the values of that name, as often as the name was chosen. -/
theorem values_chosen (vary : List Bytes) (request : Request) (name : Bytes) :
    (chosen vary request).values name =
      (List.replicate (vary.count name) (request.fields.values name)).flatten := by
  induction vary with
  | nil => rfl
  | cons other vary ih =>
      have split : (chosen (other :: vary) request).values name =
          (Fields.values ((request.fields.values other).map fun value => (other, value)) name)
            ++ (chosen vary request).values name := by
        simp [chosen, Fields.values]
      rw [split, ih]
      by_cases same : other = name
      · subst same
        simp [Fields.values, List.replicate_succ, Function.comp_def, List.filter_map]
      · simp [Fields.values, same, Function.comp_def, List.filter_map]

/-- Copies of a list, at least one of them, determine the list. -/
theorem eq_of_flatten_replicate_eq {α : Type} {count : Nat} (pos : 0 < count) {as bs : List α}
    (same : (List.replicate count as).flatten = (List.replicate count bs).flatten) : as = bs := by
  obtain ⟨count, rfl⟩ := Nat.exists_eq_succ_of_ne_zero (Nat.pos_iff_ne_zero.mp pos)
  have total := congrArg List.length same
  rw [List.length_flatten, List.length_flatten, List.map_replicate, List.map_replicate,
    List.sum_replicate_nat, List.sum_replicate_nat] at total
  have length : as.length = bs.length := Nat.eq_of_mul_eq_mul_left pos total
  rw [List.replicate_succ, List.replicate_succ, List.flatten_cons, List.flatten_cons] at same
  exact (List.append_inj same length).1

/-- The chosen header fields agree exactly if every chosen name has the same values. -/
theorem chosen_eq_iff {vary : List Bytes} {a b : Request} :
    chosen vary a = chosen vary b ↔
      ∀ name ∈ vary, a.fields.values name = b.fields.values name := by
  constructor
  · intro same name mem
    have values := congrArg (Fields.values · name) same
    simp only [values_chosen] at values
    exact eq_of_flatten_replicate_eq (List.count_pos_iff.mpr mem) values
  · intro same
    unfold chosen
    refine List.flatMap_congr fun name mem => ?_
    rw [same name mem]

/-! ### Fingerprints -/

/-- All that a fingerprint looks at is the same in both requests. -/
structure Alike (vary : List Bytes) (a b : Request) : Prop where
  method : a.method = b.method
  path : a.target.path = b.target.path
  query : a.target.query = b.target.query
  values : ∀ name ∈ vary, a.fields.values name = b.fields.values name
  user : a.user = b.user

/-- A message determines all that it looks at, and nothing else. -/
theorem encode_eq_iff {vary : List Bytes} {a b : Request} (fitsA : a.Fits) (fitsB : b.Fits) :
    encode vary a = encode vary b ↔ Alike vary a b := by
  constructor
  · intro same
    rw [encode_eq, encode_eq] at same
    have same : parts vary a = parts vary b :=
      eq_of_flatMap_field_eq (short_of_fits fitsA vary) (short_of_fits fitsB vary) same
    have query := congrArg (tagged 0x51) same
    have user := congrArg (tagged 0x55) same
    rw [tagged_query, tagged_query] at query
    rw [tagged_user, tagged_user] at user
    obtain ⟨method, behind⟩ := List.cons.inj same
    obtain ⟨path, -⟩ := List.cons.inj behind
    exact ⟨(Prod.mk.inj method).2, (Prod.mk.inj path).2, eq_of_toList_eq query,
      chosen_eq_iff.mp (chosen_eq_of_parts_eq same), eq_of_toList_eq user⟩
  · rintro ⟨method, path, query, values, user⟩
    rw [encode_eq, encode_eq, parts, parts, method, path, query, chosen_eq_iff.mpr values, user]

/-- Where the digest has no collision, a fingerprint determines the message. -/
theorem encode_eq_of_key_eq {namespaceText : Bytes} {vary : List Bytes} {messages : Set Bytes}
    (noCollision : Set.InjOn sha256 messages) {a b : Request} (memA : encode vary a ∈ messages)
    (memB : encode vary b ∈ messages) (same : key namespaceText vary a = key namespaceText vary b) :
    encode vary a = encode vary b := by
  rw [key, key, List.append_right_inj, Bytes.hex_injective.eq_iff] at same
  exact noCollision memA memB same

/-- **Fingerprints identify requests exactly.**  If the digest has no collision on the two
messages, the two requests have one fingerprint exactly if they are alike. -/
theorem key_eq_iff (namespaceText : Bytes) (vary : List Bytes) {a b : Request}
    (fitsA : a.Fits) (fitsB : b.Fits)
    (noCollision : Set.InjOn sha256 {encode vary a, encode vary b}) :
    key namespaceText vary a = key namespaceText vary b ↔ Alike vary a b := by
  rw [← encode_eq_iff fitsA fitsB]
  constructor
  · exact encode_eq_of_key_eq noCollision (by simp) (by simp)
  · intro messages
    rw [key, key, messages]

/-- A request of a user. -/
def signedIn : Request :=
  ⟨utf8 "GET", ⟨utf8 "/me", none⟩, [(utf8 "user-agent", utf8 "ua")], some (utf8 "alice"), []⟩

/-- A request of nobody, in which a header field spells out the part of the user. -/
def forged : Request :=
  ⟨utf8 "GET", ⟨utf8 "/me", none⟩,
    [(utf8 "user-agent", utf8 "ua" ++ field 0x55 (utf8 "alice"))], none, []⟩

/-- A header field that spells out the part of a user does not lead to the fingerprint of that
user. -/
theorem key_forged_ne_signedIn :
    forged.Fits ∧ signedIn.Fits ∧
      Set.InjOn sha256 {encode [utf8 "user-agent"] forged, encode [utf8 "user-agent"] signedIn} ∧
      ¬Alike [utf8 "user-agent"] forged signedIn ∧
      key (utf8 "http:") [utf8 "user-agent"] forged ≠
        key (utf8 "http:") [utf8 "user-agent"] signedIn := by
  have fitsForged : forged.Fits := by constructor <;> decide
  have fitsSignedIn : signedIn.Fits := by constructor <;> decide
  have noCollision : Set.InjOn sha256
      {encode [utf8 "user-agent"] forged, encode [utf8 "user-agent"] signedIn} :=
    Set.injOn_pair.mpr fun same => absurd same (by decide +kernel)
  have unlike : ¬Alike [utf8 "user-agent"] forged signedIn := fun alike => nomatch alike.user
  exact ⟨fitsForged, fitsSignedIn, noCollision, unlike, fun same =>
    unlike ((key_eq_iff (utf8 "http:") [utf8 "user-agent"] fitsForged fitsSignedIn
      noCollision).mp same)⟩

end Fingerprint

end TimedCache
