import Mathlib.Data.List.Forall2
import TimedCache.Json.Reader
import TimedCache.Proofs.Json.Numbers
import TimedCache.Proofs.Json.Strings

/-!
# Written documents are read back

A reader **reads** a document as a value (`Reads`) if it finds the value at the front of the
document's text, whatever follows it, as long as that does not lengthen a number.  A whole text that
holds the document is then decoded to the value (`decode_text`).

**Shapes.**  There is one law for each shape: texts (`Reads.text`), natural numbers (`Reads.word`),
lists (`Reads.list`), objects with values of one shape (`Reads.tableOf`), values with one more
demand (`Reads.filterMap`), records (`Reads.record`).

**Sequences.**  Items and fields are written with commas between them, and they are read with a
comma in front of every item but the first.  The texts are therefore cut behind each item
(`moreItems`, `moreFields`), where both sides agree.  Objects are folded over: a step takes one
field from one state to the next (`Takes`), and the fold takes them all (`TakesAll`).
-/

namespace TimedCache.Json

/-! ### Documents start with a byte of their own -/

/-- Whether a byte can stand at the beginning of a value. -/
def opensValue (b : UInt8) : Bool :=
  !isBlankByte b && b ≠ 0x5D

/-- Whether the text of a document starts with a byte that can stand at the beginning of a value. -/
def Opens (document : Json) : Prop :=
  ∀ rest, ∃ b tail, document.write rest = b :: tail ∧ opensValue b = true

theorem opens_str (content : Bytes) : Opens (.str content) := fun _ => ⟨0x22, _, rfl, rfl⟩

theorem opens_arr (items : List Json) : Opens (.arr items) := fun _ => ⟨0x5B, _, rfl, rfl⟩

theorem opens_obj (fields : List (Bytes × Json)) : Opens (.obj fields) :=
  fun _ => ⟨0x7B, _, rfl, rfl⟩

theorem opensValue_of_isDigitByte {b : UInt8} (digit : isDigitByte b = true) :
    opensValue b = true := by
  have ne : ∀ c, isDigitByte c = false → b ≠ c := by
    rintro c noDigit rfl
    exact Bool.false_ne_true (noDigit.symm.trans digit)
  simp [opensValue, isBlankByte, ne 0x20 rfl, ne 0x0A rfl, ne 0x0D rfl, ne 0x09 rfl, ne 0x5D rfl]

theorem opens_nat (n : Nat) : Opens (.nat n) := by
  intro rest
  obtain ⟨d, digits, eq, digit⟩ := natText_eq_cons n
  refine ⟨d, digits ++ rest, ?_, opensValue_of_isDigitByte digit⟩
  show natText n ++ rest = _
  rw [eq]
  rfl

/-- A byte that is no blank ends the blanks. -/
theorem skipBlanks_cons {b : UInt8} (noBlank : isBlankByte b = false) (rest : Bytes) :
    skipBlanks (b :: rest) = b :: rest :=
  List.dropWhile_cons_of_neg (Bool.eq_false_iff.mp noBlank)

/-- There are no blanks in front of a written document. -/
theorem Opens.skipBlanks {document : Json} (opens : Opens document) (rest : Bytes) :
    skipBlanks (document.write rest) = document.write rest := by
  obtain ⟨b, tail, eq, first⟩ := opens rest
  rw [opensValue, Bool.and_eq_true, Bool.not_eq_true'] at first
  rw [eq]
  exact skipBlanks_cons first.1 tail

/-! ### Written sequences -/

/-- The items behind an item. -/
def moreItems : List Json → Bytes → Bytes
  | [], rest => rest
  | item :: items, rest => 0x2C :: writeItems (item :: items) rest

theorem writeItems_cons (item : Json) (items : List Json) (rest : Bytes) :
    writeItems (item :: items) rest = item.write (moreItems items rest) := by
  cases items with
  | nil => rfl
  | cons next items => rfl

/-- The fields behind a field. -/
def moreFields : List (Bytes × Json) → Bytes → Bytes
  | [], rest => rest
  | field :: fields, rest => 0x2C :: writeFields (field :: fields) rest

theorem writeFields_cons (field : Bytes × Json) (fields : List (Bytes × Json)) (rest : Bytes) :
    writeFields (field :: fields) rest =
      writeString field.1 (0x3A :: field.2.write (moreFields fields rest)) := by
  cases fields with
  | nil => rfl
  | cons next fields => rfl

/-- No number runs over into a closing bracket or into the next item. -/
theorem endsNumber_moreItems (items : List Json) (rest : Bytes) :
    endsNumber (moreItems items (0x5D :: rest)) = true := by
  cases items with
  | nil => rfl
  | cons item items => rfl

theorem endsNumber_moreFields (fields : List (Bytes × Json)) (rest : Bytes) :
    endsNumber (moreFields fields (0x7D :: rest)) = true := by
  cases fields with
  | nil => rfl
  | cons field fields => rfl

/-! ### Lengths -/

theorem length_writeString (content rest : Bytes) :
    rest.length < (writeString content rest).length := by
  have body : (0x22 :: rest).length ≤ (content.foldr escapeOnto (0x22 :: rest)).length := by
    induction content with
    | nil => exact Nat.le_refl _
    | cons b content ih => exact Nat.le_of_lt (Nat.lt_of_le_of_lt ih (length_escapeOnto b _))
  exact Nat.lt_of_lt_of_le (Nat.lt_of_lt_of_le (Nat.lt_succ_self _) body) (Nat.le_succ _)

mutual

/-- A document is written in front of what follows it. -/
theorem length_le_write : ∀ (document : Json) (rest : Bytes),
    rest.length ≤ (document.write rest).length
  | .null, rest => by rw [write, List.length_append]; omega
  | .bool true, rest => by rw [write, List.length_append]; omega
  | .bool false, rest => by rw [write, List.length_append]; omega
  | .int n, rest => by rw [write, List.length_append]; omega
  | .float x, rest => by rw [write, List.length_append]; omega
  | .str content, rest => Nat.le_of_lt (length_writeString content rest)
  | .arr items, rest => by
      have inner := length_le_writeItems items (0x5D :: rest)
      rw [write, List.length_cons]
      rw [List.length_cons] at inner
      omega
  | .obj fields, rest => by
      have inner := length_le_writeFields fields (0x7D :: rest)
      rw [write, List.length_cons]
      rw [List.length_cons] at inner
      omega

/-- Items are written in front of what follows them, and every item but the first takes at least
its comma. -/
theorem length_le_writeItems : ∀ (items : List Json) (rest : Bytes),
    items.length - 1 + rest.length ≤ (writeItems items rest).length
  | [], rest => by rw [writeItems]; simp
  | [item], rest => by
      have value := length_le_write item rest
      rw [writeItems]
      simpa using value
  | item :: next :: items, rest => by
      have behind := length_le_writeItems (next :: items) rest
      have value := length_le_write item (0x2C :: writeItems (next :: items) rest)
      rw [writeItems]
      simp only [List.length_cons] at behind value ⊢
      omega

/-- Fields are written in front of what follows them, and every field but the first takes at least
its comma. -/
theorem length_le_writeFields : ∀ (fields : List (Bytes × Json)) (rest : Bytes),
    fields.length - 1 + rest.length ≤ (writeFields fields rest).length
  | [], rest => by rw [writeFields]; simp
  | [(name, value)], rest => by
      have behind := length_le_write value rest
      have front := length_writeString name (0x3A :: value.write rest)
      rw [writeFields]
      simp only [List.length_cons, List.length_nil] at front ⊢
      omega
  | (name, value) :: next :: fields, rest => by
      have behind := length_le_writeFields (next :: fields) rest
      have middle := length_le_write value (0x2C :: writeFields (next :: fields) rest)
      have front := length_writeString name
        (0x3A :: value.write (0x2C :: writeFields (next :: fields) rest))
      rw [writeFields]
      simp only [List.length_cons] at behind middle front ⊢
      omega

end

/-! ### Reading what was written -/

/-- The reader finds the value at the front of the document's text, whatever follows it. -/
structure Reads {α : Type} (read : Reader α) (levels : Nat) (document : Json) (a : α) : Prop where
  opens : Opens document
  reads : ∀ rest, endsNumber rest = true → read levels (document.write rest) = .ok (a, rest)

variable {α β σ : Type} {read : Reader α} {levels : Nat} {document : Json} {a : α}

/-- **A whole text is decoded** to the value that its document is read as. -/
theorem decode_text (reads : Reads read maxLevels document a) :
    decode read document.text = .ok a := by
  simp only [decode, text, reads.reads [] rfl]
  rfl

theorem Reads.text {content : Bytes} (text : content.isText = true) :
    Reads Reader.text levels (.str content) content := by
  refine ⟨opens_str content, fun rest _ => ?_⟩
  have start : skipBlanks ((Json.str content).write rest) =
      0x22 :: content.foldr escapeOnto (0x22 :: rest) := (opens_str content).skipBlanks rest
  simp only [Reader.text, start, if_true, readString_foldr text]
  rfl

theorem Reads.word {bound n : Nat} (lt : n < bound) (fits : n < word64) :
    Reads (Reader.word bound) levels (.nat n) n := by
  refine ⟨opens_nat n, fun rest ends => ?_⟩
  have start : skipBlanks ((Json.nat n).write rest) = natText n ++ rest :=
    (opens_nat n).skipBlanks rest
  have digit : (((natText n ++ rest).head?.map startsNumber).getD false) = true := by
    obtain ⟨d, digits, eq, digit⟩ := natText_eq_cons n
    rw [eq]
    simp [startsNumber, digit]
  simp only [Reader.word, start, digit, if_true, readNumber_natText fits ends]
  exact if_pos lt

theorem Reads.filterMap {f : α → Option β} {b : β} (reads : Reads read levels document a)
    (accepted : f a = some b) : Reads (Reader.filterMap read f) levels document b := by
  refine ⟨reads.opens, fun rest ends => ?_⟩
  simp only [Reader.filterMap, reads.reads rest ends, accepted]

/-- A value that may be missing is read as one that is there, unless its text begins like `null`. -/
theorem Reads.optional (reads : Reads read levels document a)
    (begins : ∀ rest, (document.write rest).head? ≠ some 0x6E) :
    Reads (Reader.optional read) levels document (some a) := by
  refine ⟨reads.opens, fun rest ends => ?_⟩
  simp only [Reader.optional, reads.opens.skipBlanks rest, if_neg (begins rest),
    reads.reads rest ends]

theorem head?_write_nat (n : Nat) (rest : Bytes) : ((Json.nat n).write rest).head? ≠ some 0x6E := by
  obtain ⟨d, digits, eq, digit⟩ := natText_eq_cons n
  show (natText n ++ rest).head? ≠ some 0x6E
  rw [eq]
  rintro ⟨⟩
  cases digit

/-! ### Lists -/

/-- A first item is next. -/
theorem listTurn_first (opens : Opens document) (rest : Bytes) :
    listTurn true (document.write rest) = .ok (.item (document.write rest)) := by
  have start := opens.skipBlanks rest
  obtain ⟨b, tail, eq, first⟩ := opens rest
  rw [eq] at start ⊢
  have noBracket : b ≠ 0x5D := by
    rintro rfl
    cases first
  simp only [listTurn, start, if_neg noBracket, if_true]

/-- Behind a comma, an item is next. -/
theorem listTurn_comma (opens : Opens document) (rest : Bytes) :
    listTurn false (0x2C :: document.write rest) = .ok (.item (document.write rest)) := by
  have start := opens.skipBlanks rest
  obtain ⟨b, tail, eq, first⟩ := opens rest
  rw [eq] at start ⊢
  have noBracket : b ≠ 0x5D := by
    rintro rfl
    cases first
  have comma : skipBlanks (0x2C :: b :: tail) = 0x2C :: b :: tail := skipBlanks_cons rfl _
  simp only [listTurn, comma, start, if_neg noBracket]
  rfl

/-- The items behind an item are read back. -/
theorem readItems_moreItems {items : List Json} {as : List α}
    (each : List.Forall₂ (Reads read levels) items as) {fuel : Nat} (enough : items.length < fuel)
    (rest : Bytes) :
    readItems (read levels) fuel false (moreItems items (0x5D :: rest)) = .ok (as, rest) := by
  induction each generalizing fuel with
  | nil =>
      obtain ⟨fuel, rfl⟩ := Nat.exists_eq_add_of_lt enough
      rfl
  | @cons item a items as reads each ih =>
      obtain ⟨fuel, rfl⟩ := Nat.exists_eq_add_of_lt enough
      have fewer : items.length < items.length + 1 + fuel := by omega
      have turn := listTurn_comma reads.opens (moreItems items (0x5D :: rest))
      have value := reads.reads _ (endsNumber_moreItems items rest)
      rw [moreItems, writeItems_cons]
      simp only [List.length_cons, readItems, turn, value, ih fewer]

/-- All items of a list are read back. -/
theorem readItems_writeItems {items : List Json} {as : List α}
    (each : List.Forall₂ (Reads read levels) items as) {fuel : Nat} (enough : items.length < fuel)
    (rest : Bytes) :
    readItems (read levels) fuel true (writeItems items (0x5D :: rest)) = .ok (as, rest) := by
  cases each with
  | nil =>
      obtain ⟨fuel, rfl⟩ := Nat.exists_eq_add_of_lt enough
      rfl
  | @cons item a items as reads each =>
      obtain ⟨fuel, rfl⟩ := Nat.exists_eq_add_of_lt enough
      have fewer : items.length < items.length + 1 + fuel := by omega
      have turn := listTurn_first reads.opens (moreItems items (0x5D :: rest))
      have value := reads.reads _ (endsNumber_moreItems items rest)
      simp only [writeItems_cons, List.length_cons, readItems, turn, value,
        readItems_moreItems each fewer]

/-- There is fuel for every item and for the closing bracket. -/
theorem length_lt_writeItems (items : List Json) (rest : Bytes) :
    items.length < (writeItems items (0x5D :: rest)).length + 1 := by
  have length := length_le_writeItems items (0x5D :: rest)
  rw [List.length_cons] at length
  omega

theorem Reads.list {items : List Json} {as : List α}
    (each : List.Forall₂ (Reads read levels) items as) :
    Reads (Reader.list read) (levels + 1) (.arr items) as := by
  refine ⟨opens_arr items, fun rest _ => ?_⟩
  have start : skipBlanks ((Json.arr items).write rest) = 0x5B :: writeItems items (0x5D :: rest) :=
    (opens_arr items).skipBlanks rest
  have items := readItems_writeItems each (length_lt_writeItems items rest) rest
  simp only [Reader.list, start, if_true, items]

/-! ### Objects -/

/-- The step reads the field, and that takes one state to the other. -/
def Takes (step : σ → Bytes → Except Fault (σ × Bytes)) (state : σ) (field : Bytes × Json)
    (state' : σ) : Prop :=
  ∀ rest, endsNumber rest = true →
    step state (field.1.foldr escapeOnto (0x22 :: 0x3A :: field.2.write rest)) = .ok (state', rest)

/-- The step reads all fields, one after the other. -/
inductive TakesAll (step : σ → Bytes → Except Fault (σ × Bytes)) :
    σ → List (Bytes × Json) → σ → Prop where
  | nil (state : σ) : TakesAll step state [] state
  | cons {state middle state' : σ} {field : Bytes × Json} {fields : List (Bytes × Json)}
    (takes : Takes step state field middle) (all : TakesAll step middle fields state') :
    TakesAll step state (field :: fields) state'

variable {step : σ → Bytes → Except Fault (σ × Bytes)} {state state' : σ}
  {fields : List (Bytes × Json)}

/-- The fields behind a field are folded over. -/
theorem foldFields_moreFields (all : TakesAll step state fields state') {fuel : Nat}
    (enough : fields.length < fuel) (rest : Bytes) :
    foldFields step fuel false state (moreFields fields (0x7D :: rest)) = .ok (state', rest) := by
  induction all generalizing fuel with
  | nil =>
      obtain ⟨fuel, rfl⟩ := Nat.exists_eq_add_of_lt enough
      rfl
  | @cons state middle state' field fields takes all ih =>
      obtain ⟨fuel, rfl⟩ := Nat.exists_eq_add_of_lt enough
      have fewer : fields.length < fields.length + 1 + fuel := by omega
      have turn (tail : Bytes) :
          objectTurn false (0x2C :: writeString field.1 tail) =
            .ok (.item (field.1.foldr escapeOnto (0x22 :: tail))) := rfl
      have taken := takes _ (endsNumber_moreFields fields rest)
      rw [moreFields, writeFields_cons]
      simp only [List.length_cons, foldFields, turn, taken, ih fewer]

/-- All fields of an object are folded over. -/
theorem foldFields_writeFields (all : TakesAll step state fields state') {fuel : Nat}
    (enough : fields.length < fuel) (rest : Bytes) :
    foldFields step fuel true state (writeFields fields (0x7D :: rest)) = .ok (state', rest) := by
  cases all with
  | nil =>
      obtain ⟨fuel, rfl⟩ := Nat.exists_eq_add_of_lt enough
      rfl
  | @cons _ middle _ field fields takes all =>
      obtain ⟨fuel, rfl⟩ := Nat.exists_eq_add_of_lt enough
      have fewer : fields.length < fields.length + 1 + fuel := by omega
      have turn (tail : Bytes) :
          objectTurn true (writeString field.1 tail) =
            .ok (.item (field.1.foldr escapeOnto (0x22 :: tail))) := rfl
      have taken := takes _ (endsNumber_moreFields fields rest)
      simp only [writeFields_cons, List.length_cons, foldFields, turn, taken,
        foldFields_moreFields all fewer]

/-- There is fuel for every field and for the closing bracket. -/
theorem length_lt_writeFields (fields : List (Bytes × Json)) (rest : Bytes) :
    fields.length < (writeFields fields (0x7D :: rest)).length + 1 := by
  have length := length_le_writeFields fields (0x7D :: rest)
  rw [List.length_cons] at length
  omega

/-- One field is read back. -/
theorem readField_write {name : Bytes} (text : name.isText = true)
    (reads : Reads read levels document a) {rest : Bytes} (ends : endsNumber rest = true) :
    readField (read levels) (name.foldr escapeOnto (0x22 :: 0x3A :: document.write rest)) =
      .ok ((name, a), rest) := by
  have colon : skipColon (0x3A :: document.write rest) = .ok (document.write rest) := rfl
  simp only [readField, readString_foldr text, colon, reads.reads rest ends]

/-- The fields of a table are collected in the order in which they come. -/
theorem takesAll_tableOf {table : List (Bytes × α)}
    (each : List.Forall₂ (fun field entry => field.1 = entry.1 ∧ field.1.isText = true ∧
      Reads read levels field.2 entry.2) fields table) (done : List (Bytes × α)) :
    TakesAll (fun done s =>
      match readField (read levels) s with
      | .error fault => .error fault
      | .ok (entry, rest) => .ok (done ++ [entry], rest)) done fields (done ++ table) := by
  induction each generalizing done with
  | nil =>
      rw [List.append_nil]
      exact .nil done
  | @cons field entry fields table first each ih =>
      obtain ⟨name, value⟩ := field
      obtain ⟨name', a⟩ := entry
      obtain ⟨same, text, reads⟩ := first
      obtain rfl : name = name' := same
      have behind := ih (done ++ [(name, a)])
      rw [List.append_assoc, List.singleton_append] at behind
      refine .cons (fun rest ends => ?_) behind
      simp only [readField_write text reads ends]

theorem Reads.tableOf {table : List (Bytes × α)}
    (each : List.Forall₂ (fun field entry => field.1 = entry.1 ∧ field.1.isText = true ∧
      Reads read levels field.2 entry.2) fields table) :
    Reads (Reader.tableOf read) (levels + 1) (.obj fields) table := by
  refine ⟨opens_obj fields, fun rest _ => ?_⟩
  have start : skipBlanks ((Json.obj fields).write rest) =
      0x7B :: writeFields fields (0x7D :: rest) := (opens_obj fields).skipBlanks rest
  simp only [Reader.tableOf, start, if_true]
  exact foldFields_writeFields (takesAll_tableOf each []) (length_lt_writeFields fields rest) rest

/-! ### Records -/

/-- A field of the record that is still missing is filled. -/
theorem takes_recordField {parts : List (Reader.Field σ)} {part : Reader.Field σ} {name : Bytes}
    (text : name.isText = true) (found : (parts.find? fun part => part.name = name) = some part)
    (missing : part.isFilled state = false) (reads : Reads (part.fill state) levels document state') :
    Takes (Reader.recordField parts levels) state (name, document) state' := by
  intro rest ends
  have colon : skipColon (0x3A :: document.write rest) = .ok (document.write rest) := rfl
  simp only [Reader.recordField, readString_foldr text, found, missing, Bool.false_eq_true,
    if_false, colon, reads.reads rest ends]

/-- A field that is kept in one place of the record is read like its value. -/
theorem Reads.fill {name : String} {get : σ → Option α} {put : σ → α → σ}
    (reads : Reads read levels document a) :
    Reads ((Reader.Field.of name read get put).fill state) levels document (put state a) := by
  refine ⟨reads.opens, fun rest ends => ?_⟩
  simp only [Reader.Field.of, reads.reads rest ends]

theorem Reads.record {parts : List (Reader.Field σ)} {finish : σ → Option α}
    (all : TakesAll (Reader.recordField parts levels) state fields state')
    (complete : finish state' = some a) :
    Reads (Reader.record parts state finish) (levels + 1) (.obj fields) a := by
  refine ⟨opens_obj fields, fun rest _ => ?_⟩
  have start : skipBlanks ((Json.obj fields).write rest) =
      0x7B :: writeFields fields (0x7D :: rest) := (opens_obj fields).skipBlanks rest
  have folded := foldFields_writeFields all (length_lt_writeFields fields rest) rest
  simp only [Reader.record, start, if_true, folded, complete]

end TimedCache.Json
