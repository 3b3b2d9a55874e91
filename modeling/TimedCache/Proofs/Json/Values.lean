import TimedCache.Proofs.Json.Documents

/-!
# Documents of any shape

Whatever text they are read from, documents come out **regular** (`Regular`): strings are UTF-8,
integers have 64 bits, the fields of an object are in the order of their names with no name twice,
and lists and objects are nested no deeper than the reader goes (`regular_of_value`).

A regular document is written and **read back unchanged**, unless it holds floating-point numbers
(`Reads.value`): a float that is not finite has no text of its own.

## Main Definitions

* `Regular` — what documents are like when they have been read
* `FloatFree` — documents without floating-point numbers
-/

namespace TimedCache.Json

/-- Fields in the order of their names, with no name twice. -/
def Ordered (fields : List (Bytes × Json)) : Prop :=
  fields.Pairwise fun first second => Bytes.before first.1 second.1 = true

/-- A document as it comes out of a text in which lists and objects are nested at most `levels`
deep. -/
inductive Regular : (levels : Nat) → Json → Prop
  | null {levels : Nat} : Regular levels .null
  | bool {levels : Nat} (value : Bool) : Regular levels (.bool value)
  /-- Signed or unsigned, an integer has 64 bits. -/
  | int {levels : Nat} {n : Int} (lower : -9223372036854775808 ≤ n) (upper : n < word64) :
      Regular levels (.int n)
  | float {levels : Nat} (x : Float) : Regular levels (.float x)
  | str {levels : Nat} {content : Bytes} (text : content.isText = true) :
      Regular levels (.str content)
  | arr {levels : Nat} {items : List Json} (each : ∀ item ∈ items, Regular levels item) :
      Regular (levels + 1) (.arr items)
  | obj {levels : Nat} {fields : List (Bytes × Json)} (ordered : Ordered fields)
      (names : ∀ field ∈ fields, field.1.isText = true)
      (each : ∀ field ∈ fields, Regular levels field.2) :
      Regular (levels + 1) (.obj fields)

/-- A document without floating-point numbers. -/
inductive FloatFree : Json → Prop
  | null : FloatFree .null
  | bool (value : Bool) : FloatFree (.bool value)
  | int (n : Int) : FloatFree (.int n)
  | str (content : Bytes) : FloatFree (.str content)
  | arr {items : List Json} (each : ∀ item ∈ items, FloatFree item) : FloatFree (.arr items)
  | obj {fields : List (Bytes × Json)} (each : ∀ field ∈ fields, FloatFree field.2) :
      FloatFree (.obj fields)

/-! ### What is read is regular -/

/-- What is read as a string is text. -/
theorem isText_of_readString {s content rest : Bytes}
    (read : readString s = some (content, rest)) : content.isText = true := by
  unfold readString at read
  split at read
  next written rest' =>
    obtain ⟨found, stands, same⟩ := Option.map_eq_some_iff.mp read
    cases same
    exact (Option.filter_eq_some_iff.mp stands).2
  next => cases read

/-- A significand stays within 64 bits. -/
theorem appendDigits_lt {significand : Nat} (lt : significand < word64) (digits : Bytes) :
    (appendDigits significand digits).1 < word64 := by
  induction digits generalizing significand with
  | nil => exact lt
  | cons d digits ih =>
      rw [appendDigits]
      split
      next fits => exact ih fits
      next => exact lt

theorem regular_integerValue {levels significand : Nat} (negative : Bool)
    (lt : significand < word64) : Regular levels (integerValue negative significand) := by
  unfold integerValue
  split
  · split
    next => exact .float _
    next bounded =>
      rw [Bool.or_eq_true, decide_eq_true_eq, decide_eq_true_eq, not_or, Nat.not_lt] at bounded
      exact .int (by omega) (by omega)
  · exact .int (by omega) (by omega)

theorem regular_signedFloat {levels : Nat} {negative : Bool} {found : Option Float} {value : Json}
    (signed : found.map (signedFloat negative) = some value) : Regular levels value := by
  obtain ⟨x, -, rfl⟩ := Option.map_eq_some_iff.mp signed
  exact .float _

theorem regular_of_readNumber {levels : Nat} {s rest : Bytes} {value : Json}
    (read : readNumber s = some (value, rest)) : Regular levels value := by
  unfold readNumber at read
  dsimp only at read
  split at read
  next parts behind _ =>
    obtain ⟨found, valued, same⟩ := Option.map_eq_some_iff.mp read
    cases same
    have lt : (appendDigits (appendDigits 0 parts.whole).1 parts.fraction).1 < word64 :=
      appendDigits_lt (appendDigits_lt (by decide) _) _
    unfold NumberParts.value? at valued
    dsimp only at valued
    split at valued
    · split at valued
      · cases valued
        exact regular_integerValue _ lt
      · exact regular_signedFloat valued
    · split at valued
      · exact regular_signedFloat valued
      · split at valued
        · cases valued
        · cases valued
          exact .float _
  next => cases read

theorem regular_of_readWord {levels : Nat} {word : String} {wanted value : Json} {s rest : Bytes}
    (regular : Regular levels wanted) (read : readWord word wanted s = .ok (value, rest)) :
    Regular levels value := by
  unfold readWord at read
  split at read
  · cases read
    exact regular
  · cases read

theorem orMalformed_eq_ok_iff {α : Type} {found : Option α} {a : α} :
    orMalformed found = .ok a ↔ found = some a := by
  cases found <;> simp [orMalformed]

theorem regular_of_readScalar {levels : Nat} {s rest : Bytes} {value : Json}
    (read : readScalar s = .ok (value, rest)) : Regular levels value := by
  unfold readScalar at read
  split at read
  next => cases read
  next b behind =>
    split at read
    · exact regular_of_readWord .null read
    split at read
    · exact regular_of_readWord (.bool true) read
    split at read
    · exact regular_of_readWord (.bool false) read
    split at read
    · obtain ⟨found, string, same⟩ := Option.map_eq_some_iff.mp (orMalformed_eq_ok_iff.mp read)
      cases same
      exact .str (isText_of_readString string)
    split at read
    · exact regular_of_readNumber (orMalformed_eq_ok_iff.mp read)
    · cases read

section Sequences

variable {α σ : Type}

/-- Every item of a list was read. -/
theorem forall_of_readItems {read : Bytes → Except Fault (α × Bytes)} {P : α → Prop}
    (each : ∀ {s a rest}, read s = .ok (a, rest) → P a) {fuel : Nat} {first : Bool}
    {s rest : Bytes} {items : List α} (reads : readItems read fuel first s = .ok (items, rest)) :
    ∀ item ∈ items, P item := by
  induction fuel generalizing first s items with
  | zero => cases reads
  | succ fuel ih =>
      rw [readItems] at reads
      split at reads
      · cases reads
      · cases reads
        exact List.forall_mem_nil _
      · split at reads
        · cases reads
        next item behind one =>
          split at reads
          · cases reads
          next items behind others =>
            cases reads
            exact List.forall_mem_cons.mpr ⟨each one, ih others⟩

/-- Folding over fields keeps what every step keeps. -/
theorem foldFields_induction {step : σ → Bytes → Except Fault (σ × Bytes)} {Inv : σ → Prop}
    (keeps : ∀ {state s state' rest}, Inv state → step state s = .ok (state', rest) → Inv state')
    {fuel : Nat} {first : Bool} {state state' : σ} {s rest : Bytes} (inv : Inv state)
    (folds : foldFields step fuel first state s = .ok (state', rest)) : Inv state' := by
  induction fuel generalizing first state s with
  | zero => cases folds
  | succ fuel ih =>
      rw [foldFields] at folds
      split at folds
      · cases folds
      · cases folds
        exact inv
      · split at folds
        · cases folds
        next state behind one => exact ih (keeps inv one) folds

theorem of_readField {read : Bytes → Except Fault (α × Bytes)} {s rest name : Bytes} {a : α}
    (reads : readField read s = .ok ((name, a), rest)) :
    name.isText = true ∧ ∃ s' rest', read s' = .ok (a, rest') := by
  unfold readField at reads
  split at reads
  · cases reads
  next name' behind string =>
    split at reads
    · cases reads
    next behind' _ =>
      split at reads
      · cases reads
      next value rest' one =>
        cases reads
        exact ⟨isText_of_readString string, _, _, one⟩

end Sequences

theorem mem_putField {name : Bytes} {value : Json} {fields : List (Bytes × Json)}
    {field : Bytes × Json} (mem : field ∈ putField name value fields) :
    field = (name, value) ∨ field ∈ fields := by
  induction fields with
  | nil => exact .inl (List.mem_singleton.mp mem)
  | cons head fields ih =>
      obtain ⟨other, kept⟩ := head
      rw [putField] at mem
      split at mem
      next =>
        exact (List.mem_cons.mp mem).imp_right (List.mem_cons_of_mem _)
      next =>
        split at mem
        next => exact List.mem_cons.mp mem
        next =>
          obtain rfl | mem := List.mem_cons.mp mem
          · exact .inr List.mem_cons_self
          · exact (ih mem).imp_right (List.mem_cons_of_mem _)

/-- A field is put in its place. -/
theorem ordered_putField {fields : List (Bytes × Json)} (ordered : Ordered fields) (name : Bytes)
    (value : Json) : Ordered (putField name value fields) := by
  induction fields with
  | nil => exact List.pairwise_singleton _ _
  | cons head fields ih =>
      obtain ⟨other, kept⟩ := head
      obtain ⟨first, rest⟩ := List.pairwise_cons.mp ordered
      rw [putField]
      split
      next same =>
        subst same
        exact List.pairwise_cons.mpr ⟨first, rest⟩
      next ne =>
        split
        next before =>
          refine List.pairwise_cons.mpr ⟨List.forall_mem_cons.mpr ⟨before, ?_⟩, ordered⟩
          exact fun field mem => Bytes.before_trans before (first field mem)
        next notBefore =>
          refine List.pairwise_cons.mpr ⟨fun field mem => ?_, ih rest⟩
          obtain rfl | mem := mem_putField mem
          · exact Bytes.before_of_not_before ne (Bool.eq_false_iff.mpr notBefore)
          · exact first field mem

/-- Reads one field of an object and puts it in its place. -/
def putRead (read : Bytes → Except Fault (Json × Bytes)) (fields : List (Bytes × Json)) (s : Bytes) :
    Except Fault (List (Bytes × Json) × Bytes) :=
  match readField read s with
  | .error fault => .error fault
  | .ok ((name, item), rest) => .ok (putField name item fields, rest)

/-- The fields that have been read so far are those of a regular object. -/
structure RegularFields (levels : Nat) (fields : List (Bytes × Json)) : Prop where
  ordered : Ordered fields
  names : ∀ field ∈ fields, field.1.isText = true
  each : ∀ field ∈ fields, Regular levels field.2

theorem regularFields_nil (levels : Nat) : RegularFields levels [] :=
  ⟨.nil, List.forall_mem_nil _, List.forall_mem_nil _⟩

theorem RegularFields.putRead {levels : Nat} {read : Bytes → Except Fault (Json × Bytes)}
    (reads : ∀ {s rest value}, read s = .ok (value, rest) → Regular levels value)
    {fields fields' : List (Bytes × Json)} {s rest : Bytes} (regular : RegularFields levels fields)
    (put : putRead read fields s = .ok (fields', rest)) : RegularFields levels fields' := by
  unfold Json.putRead at put
  split at put
  · cases put
  next name item behind one =>
    cases put
    obtain ⟨text, _, _, found⟩ := of_readField one
    refine ⟨ordered_putField regular.ordered name item, fun field mem => ?_, fun field mem => ?_⟩
    · obtain rfl | mem := mem_putField mem
      · exact text
      · exact regular.names field mem
    · obtain rfl | mem := mem_putField mem
      · exact reads found
      · exact regular.each field mem

/-- **What is read is regular.** -/
theorem regular_of_value {levels : Nat} {s rest : Bytes} {value : Json}
    (read : Reader.value levels s = .ok (value, rest)) : Regular levels value := by
  induction levels generalizing s rest value with
  | zero =>
      unfold Reader.value at read
      split at read
      · cases read
      · split at read
        · cases read
        split at read
        · cases read
        · exact regular_of_readScalar read
  | succ levels ih =>
      unfold Reader.value at read
      split at read
      · cases read
      · split at read
        · dsimp only at read
          split at read
          · cases read
          next items behind reads =>
            cases read
            exact .arr (forall_of_readItems ih reads)
        split at read
        · dsimp only at read
          split at read
          · cases read
          next fields behind folds =>
            cases read
            have regular : RegularFields levels fields :=
              foldFields_induction (RegularFields.putRead ih) (regularFields_nil levels) folds
            exact .obj regular.ordered regular.names regular.each
        · exact regular_of_readScalar read

/-! ### What is regular is read back -/

/-- What is read back from the text of a negative number. -/
theorem readNumber_negative {m : Nat} (pos : 0 < m) (bounded : m ≤ 9223372036854775808) {rest : Bytes}
    (ends : endsNumber rest = true) :
    readNumber (0x2D :: (natText m ++ rest)) = some (.int (-(m : Int)), rest) := by
  have fits : m < word64 := by
    show m < 18446744073709551616
    omega
  have value : (natText m).foldl (fun value d => 10 * value + (d.toNat - 0x30)) 0 = m :=
    (isDecimal_natText m).value
  have collected : appendDigits 0 (natText m) = (m, 0) := by
    rw [appendDigits_eq (value.symm ▸ fits), value]
  have number : NumberParts.value? true ⟨natText m, [], false, none⟩ = some (.int (-(m : Int))) := by
    have small : (decide (m = 0) || decide (9223372036854775808 < m)) = false := by
      rw [decide_eq_false (by omega), decide_eq_false (by omega)]
      rfl
    simp only [NumberParts.value?, collected, appendDigits, integerValue, small]
    rfl
  simp only [readNumber, List.head?_cons, decide_true, if_true, List.drop_one, List.tail_cons,
    readNumberParts_natText m ends, number, Option.map_some]

section Scalars

variable {levels : Nat} {document : Json}

/-- What is neither a list nor an object is read as any value if it is read as a scalar. -/
theorem Reads.scalar (opens : ∀ rest, ∃ b tail, document.write rest = b :: tail ∧
      opensValue b = true ∧ b ≠ 0x5B ∧ b ≠ 0x7B)
    (reads : ∀ rest, endsNumber rest = true →
      readScalar (document.write rest) = .ok (document, rest)) :
    Reads Reader.value levels document document := by
  have starts : Opens document := fun rest =>
    let ⟨b, tail, eq, first, _⟩ := opens rest
    ⟨b, tail, eq, first⟩
  refine ⟨starts, fun rest ends => ?_⟩
  have start := starts.skipBlanks rest
  have scalar := reads rest ends
  obtain ⟨b, tail, eq, -, noList, noObject⟩ := opens rest
  rw [eq] at start scalar ⊢
  unfold Reader.value
  simp only [start, if_neg noList, if_neg noObject]
  exact scalar

theorem reads_null : Reads Reader.value levels .null .null := by
  refine .scalar (fun rest => ⟨0x6E, _, rfl, rfl, by decide, by decide⟩) fun rest _ => ?_
  show readWord "null" .null (utf8 "null" ++ rest) = _
  rw [readWord, Bytes.strip?_append]

theorem reads_bool (value : Bool) : Reads Reader.value levels (.bool value) (.bool value) := by
  cases value with
  | true =>
      refine .scalar (fun rest => ⟨0x74, _, rfl, rfl, by decide, by decide⟩) fun rest _ => ?_
      show readWord "true" (.bool true) (utf8 "true" ++ rest) = _
      rw [readWord, Bytes.strip?_append]
  | false =>
      refine .scalar (fun rest => ⟨0x66, _, rfl, rfl, by decide, by decide⟩) fun rest _ => ?_
      show readWord "false" (.bool false) (utf8 "false" ++ rest) = _
      rw [readWord, Bytes.strip?_append]

theorem reads_str {content : Bytes} (text : content.isText = true) :
    Reads Reader.value levels (.str content) (.str content) := by
  refine .scalar (fun rest => ⟨0x22, _, rfl, rfl, by decide, by decide⟩) fun rest _ => ?_
  show orMalformed ((readString (content.foldr escapeOnto (0x22 :: rest))).map _) = _
  rw [readString_foldr text]
  rfl

/-- A digit starts nothing but a number. -/
theorem readScalar_digit {d : UInt8} (digit : isDigitByte d = true) (tail : Bytes) :
    readScalar (d :: tail) = orMalformed (readNumber (d :: tail)) := by
  have ne : ∀ c, isDigitByte c = false → d ≠ c := by
    rintro c noDigit rfl
    exact Bool.false_ne_true (noDigit.symm.trans digit)
  have starts : startsNumber d = true := by rw [startsNumber, digit, Bool.or_true]
  simp only [readScalar, if_neg (ne 0x6E rfl), if_neg (ne 0x74 rfl), if_neg (ne 0x66 rfl),
    if_neg (ne 0x22 rfl), starts, if_true]

theorem reads_int {n : Int} (lower : -9223372036854775808 ≤ n) (upper : n < word64) :
    Reads Reader.value levels (.int n) (.int n) := by
  cases n with
  | ofNat m =>
      have fits : m < word64 := Int.ofNat_lt.mp upper
      obtain ⟨d, digits, eq, digit⟩ := natText_eq_cons m
      have written : ∀ rest, (Json.int (.ofNat m)).write rest = d :: (digits ++ rest) := by
        intro rest
        show natText m ++ rest = _
        rw [eq]
        rfl
      refine .scalar (fun rest => ⟨d, _, written rest, opensValue_of_isDigitByte digit, ?_, ?_⟩)
        fun rest ends => ?_
      · rintro rfl
        cases digit
      · rintro rfl
        cases digit
      · rw [written, readScalar_digit digit, ← List.cons_append, ← eq,
          readNumber_natText fits ends]
        rfl
  | negSucc m =>
      refine .scalar (fun rest => ⟨0x2D, _, rfl, rfl, by decide, by decide⟩) fun rest ends => ?_
      show orMalformed (readNumber (0x2D :: (natText (m + 1) ++ rest))) = _
      rw [readNumber_negative (Nat.succ_pos m) (by omega) ends]
      rfl

end Scalars

/-- A field whose name comes after all others is put behind them. -/
theorem putField_last {fields : List (Bytes × Json)} {name : Bytes} (value : Json)
    (last : ∀ field ∈ fields, Bytes.before field.1 name = true) :
    putField name value fields = fields ++ [(name, value)] := by
  induction fields with
  | nil => rfl
  | cons head fields ih =>
      obtain ⟨other, kept⟩ := head
      obtain ⟨before, rest⟩ := List.forall_mem_cons.mp last
      have ne : name ≠ other := by
        rintro rfl
        cases (Bytes.before_irrefl name).symm.trans before
      have notBefore : ¬ Bytes.before name other = true := fun after => by
        cases (Bytes.before_irrefl name).symm.trans (Bytes.before_trans after before)
      rw [putField, if_neg ne, if_neg notBefore, ih rest]
      rfl

/-- The fields of an ordered object are put behind each other. -/
theorem takesAll_putRead {levels : Nat} {fields : List (Bytes × Json)}
    (each : ∀ field ∈ fields, Reads Reader.value levels field.2 field.2)
    (names : ∀ field ∈ fields, field.1.isText = true) (done : List (Bytes × Json))
    (ordered : Ordered (done ++ fields)) :
    TakesAll (putRead (Reader.value levels)) done fields (done ++ fields) := by
  induction fields generalizing done with
  | nil =>
      rw [List.append_nil]
      exact .nil done
  | cons field fields ih =>
      obtain ⟨reads, others⟩ := List.forall_mem_cons.mp each
      obtain ⟨text, texts⟩ := List.forall_mem_cons.mp names
      have last : ∀ earlier ∈ done, Bytes.before earlier.1 field.1 = true := fun earlier mem =>
        (List.pairwise_append.mp ordered).2.2 earlier mem field List.mem_cons_self
      rw [List.append_cons] at ordered ⊢
      refine .cons (fun rest ends => ?_) (ih others texts (done ++ [field]) ordered)
      unfold putRead
      rw [readField_write text reads ends]
      dsimp only
      rw [putField_last field.2 last]

/-- **What is regular is read back**, unless it holds floating-point numbers. -/
theorem Reads.value {levels : Nat} {document : Json} (regular : Regular levels document)
    (free : FloatFree document) : Reads Reader.value levels document document := by
  induction regular with
  | null => exact reads_null
  | bool value => exact reads_bool value
  | int lower upper => exact reads_int lower upper
  | float x => cases free
  | str text => exact reads_str text
  | @arr levels items each ih =>
      cases free with
      | arr free =>
          have reads : List.Forall₂ (Reads Reader.value levels) items items :=
            List.forall₂_same.mpr fun item mem => ih item mem (free item mem)
          refine ⟨opens_arr items, fun rest _ => ?_⟩
          have start : skipBlanks ((Json.arr items).write rest) =
              0x5B :: writeItems items (0x5D :: rest) := (opens_arr items).skipBlanks rest
          have behind := readItems_writeItems reads (length_lt_writeItems items rest) rest
          unfold Reader.value
          simp only [start, if_true, behind]
  | @obj levels fields ordered names each ih =>
      cases free with
      | obj free =>
          have all := takesAll_putRead (fun field mem => ih field mem (free field mem)) names []
            ordered
          refine ⟨opens_obj fields, fun rest _ => ?_⟩
          have start : skipBlanks ((Json.obj fields).write rest) =
              0x7B :: writeFields fields (0x7D :: rest) := (opens_obj fields).skipBlanks rest
          have behind : foldFields (putRead (Reader.value levels)) _ true [] _ = .ok (fields, rest) :=
            foldFields_writeFields all (length_lt_writeFields fields rest) rest
          have noList : (0x7B : UInt8) ≠ 0x5B := by decide
          unfold Reader.value
          simp only [start, if_neg noList, if_true]
          split
          next fault failed => cases failed.symm.trans behind
          next found rest' folded =>
            cases folded.symm.trans behind
            rfl

theorem Regular.mono {levels more : Nat} {document : Json} (regular : Regular levels document)
    (le : levels ≤ more) : Regular more document := by
  induction regular generalizing more with
  | null => exact .null
  | bool value => exact .bool value
  | int lower upper => exact .int lower upper
  | float x => exact .float x
  | str text => exact .str text
  | arr each ih =>
      obtain ⟨more, rfl⟩ := Nat.exists_eq_add_of_le' (Nat.le_trans (Nat.le_add_left 1 _) le)
      exact .arr fun item mem => ih item mem (Nat.le_of_succ_le_succ le)
  | obj ordered names each ih =>
      obtain ⟨more, rfl⟩ := Nat.exists_eq_add_of_le' (Nat.le_trans (Nat.le_add_left 1 _) le)
      exact .obj ordered names fun field mem => ih field mem (Nat.le_of_succ_le_succ le)

/-- The text of a document that is not nested too deep is decoded to the document. -/
theorem decode_value {document : Json} (regular : Regular maxLevels document)
    (free : FloatFree document) : decode Reader.value document.text = .ok document :=
  decode_text (.value regular free)

/-- Different documents have different texts. -/
theorem text_inj {document other : Json} (regular : Regular maxLevels document)
    (free : FloatFree document) (regular' : Regular maxLevels other) (free' : FloatFree other)
    (same : document.text = other.text) : document = other := by
  have decoded := decode_value regular free
  rw [same, decode_value regular' free'] at decoded
  exact (Except.ok.inj decoded).symm

/-! ### Records -/

section Records

variable {σ α : Type} {levels : Nat} {parts : List (Reader.Field σ)} {Inv : σ → Prop}
  {state state' : σ} {finish : σ → Option α} {s rest : Bytes} {a : α}

/-- A field that is kept in one place is read like its value. -/
theorem Field.exists_of_fill {name : String} {read : Reader α} {get : σ → Option α}
    {put : σ → α → σ}
    (filled : (Reader.Field.of name read get put).fill state levels s = .ok (state', rest)) :
    ∃ a, read levels s = .ok (a, rest) ∧ state' = put state a := by
  unfold Reader.Field.of at filled
  dsimp only at filled
  split at filled
  · cases filled
  next a _ found =>
    cases filled
    exact ⟨a, found, rfl⟩

/-- Reading any of the fields keeps what held before. -/
def FillsKeep (Inv : σ → Prop) (levels : Nat) (parts : List (Reader.Field σ)) : Prop :=
  ∀ part ∈ parts, ∀ {state s state' rest}, Inv state →
    part.fill state levels s = .ok (state', rest) → Inv state'

theorem FillsKeep.recordField (keep : FillsKeep Inv levels parts) (inv : Inv state)
    (read : Reader.recordField parts levels state s = .ok (state', rest)) : Inv state' := by
  unfold Reader.recordField at read
  split at read
  · cases read
  next name behind _ =>
    split at read
    · -- The field is not part of the record, and is passed over.
      split at read
      · cases read
      next behind' _ =>
        cases passed : skipValue behind' with
        | error fault =>
            rw [passed] at read
            cases read
        | ok behind'' =>
            rw [passed] at read
            cases read
            exact inv
    next part found =>
      split at read
      · cases read
      · split at read
        · cases read
        · exact keep part (List.mem_of_find?_eq_some found) inv read

theorem FillsKeep.recordItems {first : Bool} (keep : FillsKeep Inv levels parts) (inv : Inv state)
    (read : Reader.recordItems finish levels parts first state s = .ok (a, rest)) :
    ∃ state, Inv state ∧ finish state = some a := by
  induction parts generalizing first state s with
  | nil =>
      unfold Reader.recordItems at read
      split at read
      · cases read
      · split at read
        next complete =>
          cases read
          exact ⟨state, inv, complete⟩
        · cases read
      · cases read
      next absurd => cases absurd
  | cons part parts ih =>
      obtain ⟨keeps, others⟩ := List.forall_mem_cons.mp keep
      unfold Reader.recordItems at read
      split at read
      · cases read
      · split at read
        next complete =>
          cases read
          exact ⟨state, inv, complete⟩
        · cases read
      next absurd => cases absurd
      next same =>
        cases same
        split at read
        · cases read
        next filled => exact ih others (keeps inv filled) read

/-- **Reading a record** keeps what reading each of its fields keeps. -/
theorem FillsKeep.record {start : σ} (keep : FillsKeep Inv levels parts) (inv : Inv start)
    (read : Reader.record parts start finish (levels + 1) s = .ok (a, rest)) :
    ∃ state, Inv state ∧ finish state = some a := by
  unfold Reader.record at read
  split at read
  · cases read
  · split at read
    · dsimp only at read
      split at read
      · cases read
      next state behind folds =>
        split at read
        next complete =>
          cases read
          exact ⟨state, foldFields_induction keep.recordField inv folds, complete⟩
        · cases read
    · split at read
      · exact keep.recordItems inv read
      · cases read

end Records

end TimedCache.Json
