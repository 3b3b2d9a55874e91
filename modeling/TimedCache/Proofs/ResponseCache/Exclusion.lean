import TimedCache.Proofs.ResponseCache.Snapshot

/-!
# Excluded header fields

A policy lists names of header fields that must neither be stored nor replayed.  They are left out twice:
when a snapshot is taken, from the fields of the response, and when it is replayed, from the groups that
were stored, since these may have been stored under another policy, or with names in upper case.

**The type of the body** is a third way in.  It is stored apart from the header fields and is put back
where they do not tell it, and that is so in particular where its name is excluded.  So the type is the one
thing that comes back under an excluded name (`Snapshot.excluded_stays_out`), and it does come back
(`Snapshot.excluded_type_comes_back`).
-/

namespace TimedCache.Snapshot

open Http Json

variable {excluded : List Bytes}

/-! ### Storing -/

/-- No group of stored fields has an excluded name. -/
theorem notMem_excluded_of_mem_group {fields : Fields} {entry : Bytes × List Bytes}
    (mem : entry ∈ group (fields.filter (isStored excluded))) : entry.1 ∉ excluded := by
  obtain ⟨field, field_mem, same⟩ := name_of_mem_group mem
  have stored := (List.mem_filter.mp field_mem).2
  simp only [isStored, Bool.and_eq_true, Bool.not_eq_true', List.contains_eq_mem,
    decide_eq_false_iff_not] at stored
  rw [same]
  exact stored.1.1

/-! ### Replaying -/

/-- No group is replayed under an excluded name. -/
theorem values_replayGroup_of_excluded {name : Bytes} (listed : name ∈ excluded)
    (entry : Bytes × List Bytes) : Fields.values (replayGroup excluded entry) name = [] := by
  unfold replayGroup
  cases fieldName? entry.1 with
  | none => rfl
  | some other =>
      dsimp only
      split
      next => rfl
      next kept =>
        have ne : other ≠ name := fun same => kept (List.contains_iff_mem.mpr (same ▸ listed))
        simp [Fields.values, List.filter_map, Function.comp_def, ne]

theorem values_replayGroups_of_excluded {name : Bytes} (listed : name ∈ excluded)
    (groups : List (Bytes × List Bytes)) :
    Fields.values (groups.flatMap (replayGroup excluded)) name = [] := by
  induction groups with
  | nil => rfl
  | cons entry groups ih =>
      rw [List.flatMap_cons, Fields.values_append, values_replayGroup_of_excluded listed, ih]
      rfl

/-- The type of the body that is told apart from the header fields, if it can be told at all. -/
def separateType (snapshot : Snapshot) : List Bytes :=
  if !snapshot.contentType.isEmpty && isFieldValue snapshot.contentType then [snapshot.contentType]
  else []

/-- The type is added where the fields do not tell it, and nothing else is. -/
theorem values_typeField (snapshot : Snapshot) (fields : Fields) (name : Bytes) :
    Fields.values (snapshot.typeField fields) name =
      if name = TimedCache.contentType ∧ fields.values TimedCache.contentType = [] then
        snapshot.separateType
      else [] := by
  unfold typeField separateType
  cases told : fields.contains TimedCache.contentType with
  | true =>
      have told : fields.values TimedCache.contentType ≠ [] := Fields.contains_iff.mp told
      simp only [told, and_false, if_false, Bool.not_true, Bool.false_and]
      rfl
  | false =>
      have untold : fields.values TimedCache.contentType = [] := by
        by_contra some
        exact Bool.false_ne_true (told.symm.trans (Fields.contains_iff.mpr some))
      simp only [untold, and_true, Bool.not_false, Bool.true_and]
      by_cases isType : name = TimedCache.contentType
      · rw [if_pos isType]
        split
        · simp [Fields.values, isType]
        · rfl
      · rw [if_neg isType]
        split
        · simp [Fields.values, Ne.symm isType]
        · rfl

/-- **Excluded fields stay out**, but for the type of the body.  No group of what is stored has an
excluded name, and of whatever stored text, nothing is replayed under an excluded name but the type that
is stored apart from the header fields. -/
theorem excluded_stays_out (excluded : List Bytes) :
    (∀ {status : Nat} {fields : Fields} (body : Bytes), isStatus status = true → fields.Named →
      ∃ snapshot, Json.decode reader (capture status fields body excluded).json.text = .ok snapshot ∧
        ∀ entry ∈ snapshot.fields, entry.1 ∉ excluded) ∧
    ∀ {text : Bytes} {snapshot : Snapshot} {response : Response},
      Json.decode reader text = .ok snapshot → snapshot.replay? excluded = some response →
      ∀ name ∈ excluded, response.fields.values name =
        if name = TimedCache.contentType then snapshot.separateType else [] := by
  refine ⟨fun body isStatus named => ?_, fun {text snapshot response} _ replayed name listed => ?_⟩
  · exact ⟨_, decode_json_capture isStatus named, fun entry mem => notMem_excluded_of_mem_group mem⟩
  · unfold replay? at replayed
    split at replayed
    next =>
      obtain rfl := Option.some.inj replayed
      show (snapshot.replayFields excluded).values name = _
      rw [replayFields, Fields.values_append, values_replayGroups_of_excluded listed,
        values_typeField, List.nil_append]
      by_cases isType : name = TimedCache.contentType
      · rw [if_pos isType, if_pos ⟨isType, values_replayGroups_of_excluded (isType ▸ listed) _⟩]
      · rw [if_neg isType, if_neg fun both => isType both.1]
    next => cases replayed

/-- A stored text with names in upper case, as something else may have left it. -/
def foreignText : Bytes :=
  utf8 ("\x7b\"status_code\":200,\"content_type\":\"text/plain\",\"body\":\"\",\"headers\":"
    ++ "\x7b\"Set-Cookie\":[\"id=1\"],\"X-Trace\":[\"t\"]\x7d\x7d")

def foreignSnapshot : Snapshot :=
  ⟨200, utf8 "text/plain", [],
    [(utf8 "Set-Cookie", [utf8 "id=1"]), (utf8 "X-Trace", [utf8 "t"])]⟩

theorem decode_foreignText : Json.decode reader foreignText = .ok foreignSnapshot := by
  have read : (Json.decode reader foreignText).toOption = some foreignSnapshot := by decide +kernel
  cases decoded : Json.decode reader foreignText with
  | ok snapshot =>
      rw [decoded] at read
      exact congrArg Except.ok (Option.some.inj read)
  | error fault =>
      rw [decoded] at read
      cases read

/-- A field whose name is stored in upper case stays out, and one that is not excluded comes back. -/
theorem excluded_stays_out_foreignText :
    isStatus 203 = true ∧ sampleFields.Named ∧
    (∃ snapshot,
      Json.decode reader (capture 203 sampleFields [] [utf8 "set-cookie"]).json.text = .ok snapshot ∧
      ∀ entry ∈ snapshot.fields, entry.1 ∉ [utf8 "set-cookie"]) ∧
    ∃ snapshot response, Json.decode reader foreignText = .ok snapshot ∧
      snapshot.replay? [utf8 "set-cookie"] = some response ∧
      response.fields.values (utf8 "set-cookie") = [] ∧
      response.fields.values (utf8 "x-trace") = [utf8 "t"] := by
  have named : sampleFields.Named := by
    rw [Fields.Named]
    decide
  have status : isStatus 203 = true := by decide
  obtain ⟨stored, replayed⟩ := excluded_stays_out [utf8 "set-cookie"]
  have out := replayed decode_foreignText rfl (utf8 "set-cookie") List.mem_cons_self
  rw [if_neg (by decide)] at out
  exact ⟨status, named, stored [] status named, foreignSnapshot, _, decode_foreignText, rfl, out,
    by decide +kernel⟩

/-- **The type of the body comes back** although it is excluded. -/
theorem excluded_type_comes_back :
    ∃ snapshot response, Json.decode reader foreignText = .ok snapshot ∧
      snapshot.replay? [TimedCache.contentType] = some response ∧
      response.fields.values TimedCache.contentType = [utf8 "text/plain"] :=
  ⟨foreignSnapshot, _, decode_foreignText, rfl, by decide +kernel⟩

end TimedCache.Snapshot
