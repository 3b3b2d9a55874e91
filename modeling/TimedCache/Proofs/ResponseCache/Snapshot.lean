import TimedCache.Proofs.Base64
import TimedCache.Proofs.Json.Documents
import TimedCache.ResponseCache.Snapshot

/-!
# Snapshots are replayed

What is stored of a response is decoded and replayed with the same status, the same body, and under
every name that may be stored exactly the values that are text
(`Snapshot.replay_decode_capture`).

**Groupings.**  A grouping is in ascending order (`IsGrouping`), so a name stands in it once and
there is one list of values for it (`valuesIn`).  Adding a value appends it to the values of its
name (`valuesIn_addValue`), so header fields have the same values grouped and ungrouped
(`valuesIn_group`).  Reading puts the groups into order once more, which changes nothing
(`foldl_putValues`).

**Documents.**  A snapshot can be written as a document if all it holds is text (`IsStorable`),
and then it is read back (`reads_json`).  A captured one can, since names, values that are text,
and base64 are made of ASCII characters.

**The type of the body** is stored a second time, and it is added only where the fields do not
tell it.  For a captured snapshot that is so only where the name is excluded
(`values_typeField_capture`).
-/

namespace TimedCache

open Http Json

/-! ### Names and values -/

/-- Every field has a lower-case name of a header field. -/
def Http.Fields.Named (fields : Fields) : Prop :=
  ∀ field ∈ fields, fieldName? field.1 = some field.1

theorem Http.Fields.values_append (fields fields' : Fields) (name : Bytes) :
    (fields ++ fields').values name = fields.values name ++ fields'.values name := by
  simp [values]

/-- A name has values exactly if it is contained. -/
theorem Http.Fields.contains_iff {fields : Fields} {name : Bytes} :
    fields.contains name = true ↔ fields.values name ≠ [] := by
  simp [contains, values]

/-- A byte that may occur in a name is an ASCII character. -/
theorem lt_of_isTokenByte {b : UInt8} (token : isTokenByte b = true) : b < 0x80 := by
  have marks : (utf8 "!#$%&'*+-.^_|~").all (fun c => decide (c < 0x80)) = true := rfl
  simp only [isTokenByte, isDigitByte, Bool.or_eq_true, Bool.and_eq_true, decide_eq_true_eq,
    List.contains_iff_mem] at token
  rcases token with (((digit | upper) | lower) | mark) | grave
  · exact UInt8.lt_of_le_of_lt digit.2 (by decide)
  · exact UInt8.lt_of_le_of_lt upper.2 (by decide)
  · exact UInt8.lt_of_le_of_lt lower.2 (by decide)
  · exact of_decide_eq_true (List.all_eq_true.mp marks b mark)
  · rw [grave]
    decide

/-- A name is text. -/
theorem isText_of_fieldName? {bytes name : Bytes} (named : fieldName? bytes = some name) :
    bytes.isText = true := by
  have tokens : bytes.all isTokenByte = true := by
    by_contra other
    simp [fieldName?, other] at named
  exact Bytes.isText_of_ascii fun b mem => lt_of_isTokenByte (List.all_eq_true.mp tokens b mem)

/-- Visible values consist of ASCII characters. -/
theorem lt_of_isVisible {value : Bytes} (visible : isVisible value = true) : ∀ b ∈ value, b < 0x80 := by
  intro b mem
  have shown := List.all_eq_true.mp visible b mem
  simp only [Bool.or_eq_true, Bool.and_eq_true, decide_eq_true_eq] at shown
  rcases shown with shown | rfl
  · exact UInt8.lt_of_le_of_lt shown.2 (by decide)
  · decide

/-- Visible values are text. -/
theorem isText_of_isVisible {value : Bytes} (visible : isVisible value = true) :
    value.isText = true :=
  Bytes.isText_of_ascii (lt_of_isVisible visible)

/-- Visible values are values of header fields. -/
theorem isFieldValue_of_isVisible {value : Bytes} (visible : isVisible value = true) :
    isFieldValue value = true := by
  refine List.all_eq_true.mpr fun b mem => ?_
  have shown := List.all_eq_true.mp visible b mem
  simp only [Bool.or_eq_true, Bool.and_eq_true, decide_eq_true_eq] at shown ⊢
  refine shown.imp_left fun shown => ⟨shown.1, fun delete => ?_⟩
  exact absurd (delete ▸ shown.2) (by decide)

namespace Snapshot

/-! ### Groupings -/

/-- The names are in ascending order. -/
def IsGrouping (groups : List (Bytes × List Bytes)) : Prop :=
  groups.Pairwise fun first second => Bytes.before first.1 second.1 = true

/-- The values of a name in a grouping. -/
def valuesIn (groups : List (Bytes × List Bytes)) (name : Bytes) : List Bytes :=
  groups.flatMap fun group => if group.1 = name then group.2 else []

theorem valuesIn_cons (name : Bytes) (values : List Bytes) (groups : List (Bytes × List Bytes))
    (other : Bytes) :
    valuesIn ((name, values) :: groups) other =
      (if name = other then values else []) ++ valuesIn groups other := rfl

/-- A name that comes before the first one comes before all. -/
theorem before_of_before_head {name : Bytes} {head : Bytes × List Bytes}
    {rest : List (Bytes × List Bytes)} (grouping : IsGrouping (head :: rest))
    (before : Bytes.before name head.1 = true) :
    ∀ group ∈ head :: rest, Bytes.before name group.1 = true := by
  intro group mem
  rcases List.mem_cons.mp mem with rfl | mem
  · exact before
  · exact Bytes.before_trans before ((List.pairwise_cons.mp grouping).1 group mem)

/-- A name that comes before all others has no values among them. -/
theorem valuesIn_eq_nil {groups : List (Bytes × List Bytes)} {name : Bytes}
    (first : ∀ group ∈ groups, Bytes.before name group.1 = true) : valuesIn groups name = [] := by
  refine List.flatMap_eq_nil_iff.mpr fun group mem => if_neg fun same => ?_
  have before := first group mem
  rw [same, Bytes.before_irrefl] at before
  cases before

/-- Names in a grouping with one more value. -/
theorem name_of_mem_addValue {name value : Bytes} {groups : List (Bytes × List Bytes)}
    {group : Bytes × List Bytes} (mem : group ∈ addValue name value groups) :
    group.1 = name ∨ ∃ old ∈ groups, group.1 = old.1 := by
  induction groups with
  | nil => exact .inl (congrArg Prod.fst (List.mem_singleton.mp mem))
  | cons head rest ih =>
      obtain ⟨other, values⟩ := head
      rw [addValue] at mem
      split at mem
      · rcases List.mem_cons.mp mem with rfl | mem
        · exact .inr ⟨(other, values), List.mem_cons_self, rfl⟩
        · exact .inr ⟨group, List.mem_cons_of_mem _ mem, rfl⟩
      · split at mem
        · rcases List.mem_cons.mp mem with rfl | mem
          · exact .inl rfl
          · exact .inr ⟨group, mem, rfl⟩
        · rcases List.mem_cons.mp mem with rfl | mem
          · exact .inr ⟨(other, values), List.mem_cons_self, rfl⟩
          · exact (ih mem).imp_right fun ⟨old, mem, same⟩ => ⟨old, List.mem_cons_of_mem _ mem, same⟩

/-- A grouping stays in order. -/
theorem isGrouping_addValue (name value : Bytes) {groups : List (Bytes × List Bytes)}
    (grouping : IsGrouping groups) : IsGrouping (addValue name value groups) := by
  induction groups with
  | nil => exact List.pairwise_singleton _ _
  | cons head rest ih =>
      obtain ⟨other, values⟩ := head
      obtain ⟨first, behind⟩ := List.pairwise_cons.mp grouping
      rw [addValue]
      split
      next => exact List.pairwise_cons.mpr ⟨first, behind⟩
      next ne =>
        split
        next before =>
          exact List.pairwise_cons.mpr ⟨before_of_before_head grouping before, grouping⟩
        next notBefore =>
          refine List.pairwise_cons.mpr ⟨fun group mem => ?_, ih behind⟩
          rcases name_of_mem_addValue mem with same | ⟨old, mem, same⟩
          · rw [same]
            exact Bytes.before_of_not_before ne (Bool.eq_false_iff.mpr notBefore)
          · rw [same]
            exact first old mem

/-- A value is appended to the values of its name. -/
theorem valuesIn_addValue (name value : Bytes) {groups : List (Bytes × List Bytes)}
    (grouping : IsGrouping groups) (other : Bytes) :
    valuesIn (addValue name value groups) other =
      valuesIn groups other ++ if name = other then [value] else [] := by
  induction groups with
  | nil => simp [addValue, valuesIn]
  | cons head rest ih =>
      obtain ⟨present, values⟩ := head
      obtain ⟨first, behind⟩ := List.pairwise_cons.mp grouping
      rw [addValue]
      split
      next same =>
        -- The name is there already, and nowhere else.
        subst same
        rw [valuesIn_cons, valuesIn_cons]
        split
        next same =>
          subst same
          rw [valuesIn_eq_nil first, List.append_nil, List.append_nil]
        next => rw [List.append_nil]
      next ne =>
        split
        next before =>
          -- The name comes before all others, so it has no values yet.
          rw [valuesIn_cons]
          split
          next same =>
            subst same
            rw [valuesIn_eq_nil (before_of_before_head grouping before), List.append_nil,
              List.nil_append]
          next => rw [List.nil_append, List.append_nil]
        next => rw [valuesIn_cons, valuesIn_cons, ih behind, List.append_assoc]

/-- Header fields added to a grouping keep their order. -/
theorem foldl_addValue (fields : Fields) {groups : List (Bytes × List Bytes)}
    (grouping : IsGrouping groups) :
    IsGrouping (fields.foldl (fun groups field => addValue field.1 field.2 groups) groups) ∧
      ∀ name, valuesIn (fields.foldl (fun groups field => addValue field.1 field.2 groups) groups)
        name = valuesIn groups name ++ fields.values name := by
  induction fields generalizing groups with
  | nil => exact ⟨grouping, fun name => (List.append_nil _).symm⟩
  | cons field fields ih =>
      obtain ⟨keeps, values⟩ := ih (isGrouping_addValue field.1 field.2 grouping)
      refine ⟨keeps, fun name => ?_⟩
      rw [List.foldl_cons, values, valuesIn_addValue field.1 field.2 grouping, List.append_assoc]
      congr 1
      by_cases same : field.1 = name
      · simp [Fields.values, same]
      · simp [Fields.values, same]

theorem isGrouping_group (fields : Fields) : IsGrouping (group fields) :=
  (foldl_addValue fields List.Pairwise.nil).1

/-- **Header fields have the same values** grouped and ungrouped. -/
theorem valuesIn_group (fields : Fields) (name : Bytes) :
    valuesIn (group fields) name = fields.values name :=
  (foldl_addValue fields List.Pairwise.nil).2 name

/-- Every name of a grouping is the name of a field. -/
theorem name_of_mem_group {fields : Fields} {entry : Bytes × List Bytes}
    (mem : entry ∈ group fields) : ∃ field ∈ fields, entry.1 = field.1 := by
  have step : ∀ (fields : Fields) (groups : List (Bytes × List Bytes)),
      entry ∈ fields.foldl (fun groups field => addValue field.1 field.2 groups) groups →
        (∃ field ∈ fields, entry.1 = field.1) ∨ ∃ old ∈ groups, entry.1 = old.1 := by
    intro fields
    induction fields with
    | nil => exact fun groups mem => .inr ⟨entry, mem, rfl⟩
    | cons field fields ih =>
        intro groups mem
        rcases ih _ mem with ⟨found, mem, same⟩ | ⟨old, mem, same⟩
        · exact .inl ⟨found, List.mem_cons_of_mem _ mem, same⟩
        · rcases name_of_mem_addValue mem with same' | ⟨older, mem, same'⟩
          · exact .inl ⟨field, List.mem_cons_self, same.trans same'⟩
          · exact .inr ⟨older, mem, same.trans same'⟩
  exact (step fields [] mem).resolve_right fun ⟨_, mem, _⟩ => nomatch mem

/-- Every value of a group is a value of its name. -/
theorem mem_valuesIn {groups : List (Bytes × List Bytes)} {group : Bytes × List Bytes}
    (mem : group ∈ groups) {value : Bytes} (value_mem : value ∈ group.2) :
    value ∈ valuesIn groups group.1 :=
  List.mem_flatMap.mpr ⟨group, mem, by rwa [if_pos rfl]⟩

/-! ### Putting groups into order -/

/-- Values are put behind all names that come before theirs. -/
theorem putValues_concat {groups : List (Bytes × List Bytes)} {name : Bytes}
    (last : ∀ group ∈ groups, Bytes.before group.1 name = true) (values : List Bytes) :
    putValues name values groups = groups ++ [(name, values)] := by
  induction groups with
  | nil => rfl
  | cons head rest ih =>
      obtain ⟨other, old⟩ := head
      have before : Bytes.before other name = true := last (other, old) List.mem_cons_self
      have ne : name ≠ other := by
        rintro rfl
        rw [Bytes.before_irrefl] at before
        cases before
      have notBefore : ¬Bytes.before name other = true := fun after => by
        have self := Bytes.before_trans before after
        rw [Bytes.before_irrefl] at self
        cases self
      rw [putValues, if_neg ne, if_neg notBefore,
        ih fun group mem => last group (List.mem_cons_of_mem _ mem)]
      rfl

/-- Groups that are in order stay as they are. -/
theorem foldl_putValues {groups : List (Bytes × List Bytes)} (grouping : IsGrouping groups) :
    groups.foldl (fun sorted group => putValues group.1 group.2 sorted) [] = groups := by
  have step : ∀ done : List (Bytes × List Bytes), IsGrouping (done ++ groups) →
      groups.foldl (fun sorted group => putValues group.1 group.2 sorted) done = done ++ groups := by
    intro done sorted
    induction groups generalizing done with
    | nil => exact (List.append_nil done).symm
    | cons group groups ih =>
        have last : ∀ old ∈ done, Bytes.before old.1 group.1 = true := fun old mem =>
          (List.pairwise_append.mp sorted).2.2 old mem group List.mem_cons_self
        rw [List.append_cons] at sorted
        rw [List.foldl_cons, putValues_concat last, ih (List.pairwise_cons.mp grouping).2 _ sorted,
          ← List.append_cons]
  exact step [] grouping

/-! ### Documents -/

/-- All that a snapshot holds can be written. -/
structure IsStorable (snapshot : Snapshot) : Prop where
  status : snapshot.status < word16
  contentType : snapshot.contentType.isText = true
  names : ∀ group ∈ snapshot.fields, group.1.isText = true
  values : ∀ group ∈ snapshot.fields, ∀ value ∈ group.2, value.isText = true
  grouping : IsGrouping snapshot.fields

/-- The grouped header fields are read back. -/
theorem reads_fields {groups : List (Bytes × List Bytes)} (grouping : IsGrouping groups)
    (names : ∀ group ∈ groups, group.1.isText = true)
    (values : ∀ group ∈ groups, ∀ value ∈ group.2, value.isText = true) (levels : Nat) :
    Reads fieldsReader (levels + 2)
      (.obj (groups.map fun group => (group.1, .arr (group.2.map Json.str)))) groups := by
  refine Reads.filterMap (Reads.tableOf ?_) (congrArg some (foldl_putValues grouping))
  rw [List.forall₂_map_left_iff]
  refine List.forall₂_same.mpr fun group mem => ⟨rfl, names group mem, Reads.list ?_⟩
  rw [List.forall₂_map_left_iff]
  exact List.forall₂_same.mpr fun value value_mem => Reads.text (values group mem value value_mem)

/-- **A storable snapshot is read back** from its document. -/
theorem reads_json {snapshot : Snapshot} (storable : IsStorable snapshot) (levels : Nat) :
    Reads reader (levels + 3) snapshot.json snapshot := by
  have status : Reads (.word word16) (levels + 2) (.nat snapshot.status) snapshot.status :=
    Reads.word storable.status (Nat.lt_trans storable.status (by decide))
  have contentType : Reads Reader.text (levels + 2) (.str snapshot.contentType)
      snapshot.contentType := Reads.text storable.contentType
  have encoded : (Base64.encode snapshot.body).isText = true :=
    Bytes.isText_of_ascii fun b mem => Base64.lt_of_mem_encode mem
  have body : Reads (.filterMap Reader.text Base64.decode?) (levels + 2)
      (.str (Base64.encode snapshot.body)) snapshot.body :=
    Reads.filterMap (Reads.text encoded) (Base64.decode?_encode snapshot.body)
  have fields := reads_fields storable.grouping storable.names storable.values levels
  have complete : Draft.finish ⟨some snapshot.status, some snapshot.contentType,
      some snapshot.body, some snapshot.fields⟩ = some snapshot := rfl
  refine Reads.record ?_ complete
  change TakesAll _ _ [(utf8 "status_code", _), (utf8 "content_type", _), (utf8 "body", _),
    (utf8 "headers", _)] _
  -- The fields come in the order in which they are written, each of them missing so far.
  refine .cons (takes_recordField (Bytes.isText_utf8 _) rfl rfl status.fill) ?_
  refine .cons (takes_recordField (Bytes.isText_utf8 _) rfl rfl contentType.fill) ?_
  refine .cons (takes_recordField (Bytes.isText_utf8 _) rfl rfl body.fill) ?_
  exact .cons (takes_recordField (Bytes.isText_utf8 _) rfl rfl fields.fill) (.nil _)

/-! ### Captured snapshots -/

variable {status : Nat} {fields : Fields} {body : Bytes} {excluded : List Bytes}

/-- Stored fields have visible values. -/
theorem isVisible_of_mem_filter {field : Bytes × Bytes}
    (mem : field ∈ fields.filter (isStored excluded)) : isVisible field.2 = true := by
  have stored := (List.mem_filter.mp mem).2
  rw [isStored, Bool.and_eq_true] at stored
  exact stored.2

/-- Under a name that may be stored, the values that are text are stored. -/
theorem values_filter_isStored {name : Bytes} (included : name ∉ excluded)
    (notTag : name ≠ cacheTag) :
    Fields.values (fields.filter (isStored excluded)) name =
      (fields.values name).filter isVisible := by
  rw [Fields.values, Fields.values, List.filter_map, List.filter_filter, List.filter_filter]
  congr 1
  refine List.filter_congr fun field _ => ?_
  by_cases same : field.1 = name
  · simp [isStored, same, included, notTag]
  · simp [same]

/-- Groups of stored fields have a name of a header field. -/
theorem fieldName?_of_mem_group (named : fields.Named) {entry : Bytes × List Bytes}
    (mem : entry ∈ group (fields.filter (isStored excluded))) :
    fieldName? entry.1 = some entry.1 := by
  obtain ⟨field, field_mem, same⟩ := name_of_mem_group mem
  rw [same]
  exact named field (List.mem_of_mem_filter field_mem)

/-- Groups of stored fields have visible values. -/
theorem isVisible_of_mem_group {entry : Bytes × List Bytes}
    (mem : entry ∈ group (fields.filter (isStored excluded))) :
    ∀ value ∈ entry.2, isVisible value = true := by
  intro value value_mem
  have listed := mem_valuesIn mem value_mem
  rw [valuesIn_group] at listed
  obtain ⟨field, field_mem, rfl⟩ := List.mem_map.mp listed
  exact isVisible_of_mem_filter (List.mem_of_mem_filter field_mem)

/-- The first value of a name is text, if it is kept. -/
theorem isVisible_of_firstText? {name value : Bytes}
    (first : fields.firstText? name = some value) :
    isVisible value = true ∧ value ∈ fields.values name := by
  obtain ⟨head, visible⟩ := Option.filter_eq_some_iff.mp first
  exact ⟨visible, List.mem_of_mem_head? head⟩

/-- What is captured of a response can be stored. -/
theorem isStorable_capture (isStatus : isStatus status = true) (named : fields.Named) :
    IsStorable (capture status fields body excluded) where
  status := by
    have bounds : 100 ≤ status ∧ status < 1000 := by simpa [Http.isStatus] using isStatus
    exact Nat.lt_trans bounds.2 (by decide)
  contentType := by
    show ((fields.firstText? TimedCache.contentType).getD []).isText = true
    cases first : fields.firstText? TimedCache.contentType with
    | none => rfl
    | some value => exact isText_of_isVisible (isVisible_of_firstText? first).1
  names := fun _ mem => isText_of_fieldName? (fieldName?_of_mem_group named mem)
  values := fun _ mem value value_mem =>
    isText_of_isVisible (isVisible_of_mem_group mem value value_mem)
  grouping := isGrouping_group _

/-- **What is captured is decoded** from its stored text. -/
theorem decode_json_capture (isStatus : isStatus status = true) (named : fields.Named) :
    Json.decode reader (capture status fields body excluded).json.text =
      .ok (capture status fields body excluded) :=
  decode_text (reads_json (isStorable_capture isStatus named) 124)

/-! ### Replaying -/

/-- A group whose values are visible is replayed as it is, unless its name is excluded. -/
theorem values_replayGroup {entry : Bytes × List Bytes}
    (named : fieldName? entry.1 = some entry.1) (visible : ∀ value ∈ entry.2, isVisible value = true)
    (name : Bytes) :
    Fields.values (replayGroup excluded entry) name =
      if name ∈ excluded then [] else if entry.1 = name then entry.2 else [] := by
  have whole : entry.2.filter isFieldValue = entry.2 :=
    List.filter_eq_self.mpr fun value mem => isFieldValue_of_isVisible (visible value mem)
  simp only [replayGroup, named, whole, List.contains_iff_mem]
  by_cases listed : entry.1 ∈ excluded
  · rw [if_pos listed]
    by_cases same : entry.1 = name
    · rw [if_pos (same ▸ listed)]
      rfl
    · rw [if_neg same, ite_self]
      rfl
  · rw [if_neg listed]
    by_cases same : entry.1 = name
    · rw [if_neg (same ▸ listed), if_pos same]
      simp [Fields.values, List.filter_map, Function.comp_def, same]
    · rw [if_neg same, ite_self]
      simp [Fields.values, List.filter_map, Function.comp_def, same]

/-- Groups are replayed with the values that they hold. -/
theorem values_flatMap_replayGroup {groups : List (Bytes × List Bytes)}
    (named : ∀ entry ∈ groups, fieldName? entry.1 = some entry.1)
    (visible : ∀ entry ∈ groups, ∀ value ∈ entry.2, isVisible value = true) (name : Bytes) :
    Fields.values (groups.flatMap (replayGroup excluded)) name =
      if name ∈ excluded then [] else valuesIn groups name := by
  induction groups with
  | nil => exact (ite_self []).symm
  | cons entry groups ih =>
      have behind := ih (fun e mem => named e (List.mem_cons_of_mem _ mem))
        (fun e mem => visible e (List.mem_cons_of_mem _ mem))
      have front : Fields.values (replayGroup excluded entry) name = _ :=
        values_replayGroup (named entry List.mem_cons_self) (visible entry List.mem_cons_self) name
      rw [List.flatMap_cons, Fields.values_append, front, behind]
      split
      · rfl
      · rfl

/-- Captured groups are replayed with the values that were stored. -/
theorem values_flatMap_capture (named : fields.Named) (name : Bytes) :
    Fields.values ((capture status fields body excluded).fields.flatMap (replayGroup excluded))
        name =
      if name ∈ excluded then [] else
        Fields.values (fields.filter (isStored excluded)) name := by
  show Fields.values ((group (fields.filter (isStored excluded))).flatMap _) name = _
  rw [values_flatMap_replayGroup (fun _ mem => fieldName?_of_mem_group named mem)
    (fun _ mem => isVisible_of_mem_group mem), valuesIn_group]

/-- **The type of the body is added** only where its name is excluded. -/
theorem typeField_capture (named : fields.Named)
    (included : TimedCache.contentType ∉ excluded ∨ fields.values TimedCache.contentType = []) :
    (capture status fields body excluded).typeField
      ((capture status fields body excluded).fields.flatMap (replayGroup excluded)) = [] := by
  cases first : fields.firstText? TimedCache.contentType with
  | none =>
      have empty : (capture status fields body excluded).contentType = [] := by
        rw [capture, first]
        rfl
      simp [typeField, empty]
  | some value =>
      obtain ⟨visible, mem⟩ := isVisible_of_firstText? first
      have included : TimedCache.contentType ∉ excluded :=
        included.resolve_right (List.ne_nil_of_mem mem)
      have told : Fields.contains ((capture status fields body excluded).fields.flatMap
          (replayGroup excluded)) TimedCache.contentType = true := by
        rw [Fields.contains_iff, values_flatMap_capture named, if_neg included,
          values_filter_isStored included (by decide)]
        exact List.ne_nil_of_mem (List.mem_filter.mpr ⟨mem, visible⟩)
      simp [typeField, told]

/-- The type of the body adds nothing to other names, and nothing where the response told no
type. -/
theorem values_typeField_capture (named : fields.Named) {name : Bytes}
    (covered : name ∉ excluded ∨ fields.values name = []) :
    Fields.values ((capture status fields body excluded).typeField
      ((capture status fields body excluded).fields.flatMap (replayGroup excluded))) name = [] := by
  by_cases isType : TimedCache.contentType = name
  · rw [typeField_capture named (isType ▸ covered)]
    rfl
  · unfold typeField
    split
    · simp [Fields.values, isType]
    · rfl

/-- **Names that may be stored are replayed** with exactly their values that are text. -/
theorem values_replayFields_capture (named : fields.Named) {name : Bytes}
    (included : name ∉ excluded) (notTag : name ≠ cacheTag) :
    ((capture status fields body excluded).replayFields excluded).values name =
      (fields.values name).filter isVisible := by
  rw [replayFields, Fields.values_append, values_typeField_capture named (.inl included),
    values_flatMap_capture named, if_neg included, values_filter_isStored included notTag,
    List.append_nil]

/-- Names without values are replayed without values. -/
theorem values_replayFields_capture_eq_nil (named : fields.Named) {name : Bytes}
    (none : fields.values name = []) :
    ((capture status fields body excluded).replayFields excluded).values name = [] := by
  have absent : Fields.values (fields.filter (isStored excluded)) name = [] := by
    rw [Fields.values, List.filter_comm]
    rw [Fields.values, List.map_eq_nil_iff] at none
    rw [none]
    rfl
  rw [replayFields, Fields.values_append, values_typeField_capture named (.inr none),
    values_flatMap_capture named, absent, ite_self, List.append_nil]

/-- **Replaying undoes capturing**, through the text that is stored: the decoded snapshot is replayed
with the same status and the same body, and under every name that is neither excluded nor the tag of
the cache with exactly the values that are text. -/
theorem replay_decode_capture {status : Nat} {fields : Fields}
    (isStatus : isStatus status = true) (named : fields.Named) (body : Bytes)
    (excluded : List Bytes) :
    ∃ snapshot response,
      Json.decode reader (capture status fields body excluded).json.text = .ok snapshot ∧
      snapshot.replay? excluded = some response ∧
      response.status = status ∧ response.body = .whole body ∧
      (∀ name, name ∉ excluded → name ≠ cacheTag →
        response.fields.values name = (fields.values name).filter isVisible) ∧
      ∀ name, fields.values name = [] → response.fields.values name = [] := by
  have replayed : (capture status fields body excluded).replay? excluded =
      some ⟨status, (capture status fields body excluded).replayFields excluded, .whole body⟩ :=
    if_pos isStatus
  exact ⟨_, _, decode_json_capture isStatus named, replayed, rfl, rfl,
    fun _ => values_replayFields_capture named, fun _ => values_replayFields_capture_eq_nil named⟩

/-- Header fields with a repeated name, a quotation mark, a backslash, a tab, a value that is not
text in front of one that is, and a field that must not be stored. -/
def sampleFields : Fields :=
  [(utf8 "link", utf8 "<a>; rel=\"next\""), (TimedCache.contentType, [0xE9]),
    (utf8 "set-cookie", utf8 "id=1"), (utf8 "link", 0x09 :: utf8 "C:\\"),
    (TimedCache.contentType, utf8 "text/plain"), (utf8 "etag", [0x41, 0xFF])]

/-- Values that are not text are left out one by one, and the others keep their order. -/
theorem replay_decode_capture_sampleFields :
    isStatus 203 = true ∧ sampleFields.Named ∧
    ∃ snapshot response,
      Json.decode reader
        (capture 203 sampleFields [0x00, 0xFF, 0x22, 0x5C] [utf8 "set-cookie"]).json.text =
          .ok snapshot ∧
      snapshot.replay? [utf8 "set-cookie"] = some response ∧
      response.status = 203 ∧ response.body = .whole [0x00, 0xFF, 0x22, 0x5C] ∧
      response.fields.values (utf8 "link") = [utf8 "<a>; rel=\"next\"", 0x09 :: utf8 "C:\\"] ∧
      response.fields.values TimedCache.contentType = [utf8 "text/plain"] ∧
      response.fields.values (utf8 "etag") = [] ∧ response.fields.values (utf8 "age") = [] := by
  have named : sampleFields.Named := by
    rw [Fields.Named]
    decide
  obtain ⟨snapshot, response, decoded, replayed, status, body, values, none⟩ :=
    replay_decode_capture (show isStatus 203 = true by decide) named [0x00, 0xFF, 0x22, 0x5C]
      [utf8 "set-cookie"]
  refine ⟨by decide, named, snapshot, response, decoded, replayed, status, body, ?_, ?_, ?_,
    none (utf8 "age") (by decide)⟩
  · rw [values (utf8 "link") (by decide) (by decide)]
    decide
  · rw [values TimedCache.contentType (by decide) (by decide)]
    decide
  · rw [values (utf8 "etag") (by decide) (by decide)]
    decide

end Snapshot

end TimedCache
