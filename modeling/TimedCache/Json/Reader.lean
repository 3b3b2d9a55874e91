import TimedCache.Json.Lexeme

/-!
# Reading documents

Documents are read in one pass, **as values of a wanted shape**.  A reader stops at the first
fault, and it matters which of two kinds comes first: a text that breaks the grammar is
`malformed`, a value that is not of the wanted shape is of the `wrongShape`.

**Depth.**  Lists and objects may be nested 127 deep.

**Records.**  A record is an object whose fields may come in any order.  A field that is not part
of the record is passed over, whatever it holds; a field that comes twice is a fault, and so is a
missing one unless the record can do without it.  A record may also be written as the list of its
fields, of which those at the end may be missing if the record can do without them.

## Main Definitions

* `Reader` — reads a value of some shape
* `Reader.value`, `Reader.text`, `Reader.word`, `Reader.real` — simple shapes
* `Reader.optional`, `Reader.list`, `Reader.tableOf`, `Reader.record` — composed shapes
* `decode` — reads a whole text
* `decodeFront` — reads the document at the front of a text
-/

namespace TimedCache.Json

/-- Why a document could not be read. -/
inductive Fault where
  /-- The text breaks the grammar. -/
  | malformed
  /-- A value is not of the wanted shape. -/
  | wrongShape
  deriving DecidableEq, Repr

/-- The wording of a fault. -/
def Fault.text : Fault → Bytes
  | malformed => utf8 "the text breaks the grammar"
  | wrongShape => utf8 "a value is not of the wanted shape"

/-- Reads a value at the front of a text, in which lists and objects may still be nested `levels`
deep, and gives back the rest of the text. -/
abbrev Reader (α : Type) := (levels : Nat) → Bytes → Except Fault (α × Bytes)

/-- A lexeme, or the fault of not finding one. -/
def orMalformed {α : Type} : Option α → Except Fault α
  | some a => .ok a
  | none => .error .malformed

/-- The depth to which lists and objects may be nested. -/
def maxLevels : Nat := 127

/-! ### Lists and objects, item by item -/

/-- What comes next in a list or an object. -/
inductive Turn where
  /-- One more item, at the front of this text. -/
  | item (rest : Bytes)
  /-- The closing bracket, and this behind it. -/
  | done (rest : Bytes)

/-- What comes next in a list.  Behind the first item, items are separated by commas. -/
def listTurn (first : Bool) (s : Bytes) : Except Fault Turn :=
  match skipBlanks s with
  | [] => .error .malformed
  | b :: rest =>
    if b = 0x5D then .ok (.done rest)
    else if first then .ok (.item (b :: rest))
    else if b = 0x2C then
      match skipBlanks rest with
      | [] => .error .malformed
      | c :: rest => if c = 0x5D then .error .malformed else .ok (.item (c :: rest))
    else .error .malformed

/-- What comes next in an object; an item starts behind the quotation mark of its name. -/
def objectTurn (first : Bool) (s : Bytes) : Except Fault Turn :=
  match skipBlanks s with
  | [] => .error .malformed
  | b :: rest =>
    if b = 0x7D then .ok (.done rest)
    else if first then if b = 0x22 then .ok (.item rest) else .error .malformed
    else if b = 0x2C then
      match skipBlanks rest with
      | [] => .error .malformed
      | c :: rest => if c = 0x22 then .ok (.item rest) else .error .malformed
    else .error .malformed

/-- What follows the colon between a name and its value. -/
def skipColon (s : Bytes) : Except Fault Bytes :=
  match skipBlanks s with
  | [] => .error .malformed
  | b :: rest => if b = 0x3A then .ok rest else .error .malformed

/-- The items of a list up to its closing bracket.  Every round takes a byte of the text. -/
def readItems {α : Type} (read : Bytes → Except Fault (α × Bytes)) :
    (fuel : Nat) → (first : Bool) → Bytes → Except Fault (List α × Bytes)
  | 0, _, _ => .error .malformed
  | fuel + 1, first, s =>
    match listTurn first s with
    | .error fault => .error fault
    | .ok (.done rest) => .ok ([], rest)
    | .ok (.item rest) =>
      match read rest with
      | .error fault => .error fault
      | .ok (item, rest) =>
        match readItems read fuel false rest with
        | .error fault => .error fault
        | .ok (items, rest) => .ok (item :: items, rest)

/-- Folds over the fields of an object up to its closing bracket.  `step` starts behind the
quotation mark of a field's name and reads the field to its end. -/
def foldFields {σ : Type} (step : σ → Bytes → Except Fault (σ × Bytes)) :
    (fuel : Nat) → (first : Bool) → σ → Bytes → Except Fault (σ × Bytes)
  | 0, _, _, _ => .error .malformed
  | fuel + 1, first, state, s =>
    match objectTurn first s with
    | .error fault => .error fault
    | .ok (.done rest) => .ok (state, rest)
    | .ok (.item rest) =>
      match step state rest with
      | .error fault => .error fault
      | .ok (state, rest) => foldFields step fuel false state rest

/-- One field of an object: its name, and its value read by `read`. -/
def readField {α : Type} (read : Bytes → Except Fault (α × Bytes)) (s : Bytes) :
    Except Fault ((Bytes × α) × Bytes) :=
  match readString s with
  | none => .error .malformed
  | some (name, rest) =>
    match skipColon rest with
    | .error fault => .error fault
    | .ok rest =>
      match read rest with
      | .error fault => .error fault
      | .ok (value, rest) => .ok ((name, value), rest)

/-! ### Any value -/

/-- A word, and what it stands for. -/
def readWord (word : String) (value : Json) (s : Bytes) : Except Fault (Json × Bytes) :=
  match Bytes.strip? (utf8 word) s with
  | some rest => .ok (value, rest)
  | none => .error .malformed

/-- Reads a value that is neither a list nor an object, at the front of a text. -/
def readScalar (s : Bytes) : Except Fault (Json × Bytes) :=
  match s with
  | [] => .error .malformed
  | b :: rest =>
    if b = 0x6E then readWord "null" .null s
    else if b = 0x74 then readWord "true" (.bool true) s
    else if b = 0x66 then readWord "false" (.bool false) s
    else if b = 0x22 then orMalformed ((readString rest).map fun found => (.str found.1, found.2))
    else if startsNumber b then orMalformed (readNumber s)
    else .error .malformed

/-- Reads any value.  Of fields with one name the last counts, and fields are kept in the order
of their names. -/
def Reader.value : Reader Json
  | levels, s =>
    match skipBlanks s with
    | [] => .error .malformed
    | b :: rest =>
      if b = 0x5B then
        match levels with
        | 0 => .error .malformed
        | levels + 1 =>
          match readItems (value levels) (rest.length + 1) true rest with
          | .error fault => .error fault
          | .ok (items, rest) => .ok (.arr items, rest)
      else if b = 0x7B then
        match levels with
        | 0 => .error .malformed
        | levels + 1 =>
          let step fields s :=
            match readField (value levels) s with
            | .error fault => .error fault
            | .ok ((name, item), rest) => .ok (putField name item fields, rest)
          match foldFields step (rest.length + 1) true [] rest with
          | .error fault => .error fault
          | .ok (fields, rest) => .ok (.obj fields, rest)
      else readScalar (b :: rest)

/-! ### Passing over a value -/

/-- Passes over a value that is neither a list nor an object. -/
def skipScalar (s : Bytes) : Except Fault Bytes :=
  match s with
  | [] => .error .malformed
  | b :: rest =>
    if b = 0x22 then orMalformed (skipString rest)
    else if startsNumber b then orMalformed (skipNumber s)
    else (readScalar s).map Prod.snd

/-- A bracket that is still open. -/
inductive Bracket where
  | list
  | object
  deriving DecidableEq, Repr

/-- Passes over the beginning of a value: over all of it if it is neither a list nor an object,
else over its opening bracket.  Gives back the open brackets, whether the first item comes next,
and the rest. -/
def skipIntoValue (opened : List Bracket) (s : Bytes) :
    Except Fault (List Bracket × Bool × Bytes) :=
  match skipBlanks s with
  | [] => .error .malformed
  | b :: rest =>
    if b = 0x5B then .ok (.list :: opened, true, rest)
    else if b = 0x7B then .ok (.object :: opened, true, rest)
    else match skipScalar (b :: rest) with
      | .ok rest => .ok (opened, false, rest)
      | .error fault => .error fault

/-- Passes over the name of a field and its colon, behind the quotation mark of the name. -/
def skipName (s : Bytes) : Except Fault Bytes :=
  match skipString s with
  | none => .error .malformed
  | some rest => skipColon rest

/-- What comes next inside a bracket; an item starts with its value. -/
def skipTurn (bracket : Bracket) (first : Bool) (s : Bytes) : Except Fault Turn :=
  match bracket with
  | .list => listTurn first s
  | .object =>
    match objectTurn first s with
    | .ok (.item rest) => (skipName rest).map Turn.item
    | other => other

/-- Passes over everything up to the last closing bracket.  Every round takes a byte of the text,
so `fuel` need not exceed its length by more than one. -/
def skipOut : (fuel : Nat) → (opened : List Bracket) → (first : Bool) → Bytes → Except Fault Bytes
  | 0, _, _, _ => .error .malformed
  | _ + 1, [], _, s => .ok s
  | fuel + 1, bracket :: opened, first, s =>
    match skipTurn bracket first s with
    | .error fault => .error fault
    | .ok (.done rest) => skipOut fuel opened false rest
    | .ok (.item rest) =>
      match skipIntoValue (bracket :: opened) rest with
      | .error fault => .error fault
      | .ok (opened, first, rest) => skipOut fuel opened first rest

/-- Passes over a value of any depth. -/
def skipValue (s : Bytes) : Except Fault Bytes :=
  match skipIntoValue [] s with
  | .error fault => .error fault
  | .ok (opened, first, rest) => skipOut (rest.length + 1) opened first rest

namespace Reader

/-! ### Simple shapes -/

/-- The fault of a text at whose front there is some other value than the wanted one: it is of
the wrong shape if that value is well-formed as far as it need be read. -/
def mismatch (s : Bytes) : Fault :=
  match s with
  | [] => .malformed
  | b :: _ =>
    if b = 0x5B || b = 0x7B then .wrongShape
    else match readScalar s with
      | .ok _ => .wrongShape
      | .error fault => fault

/-- Reads a text. -/
def text : Reader Bytes := fun _ s =>
  match skipBlanks s with
  | [] => .error .malformed
  | b :: rest =>
    if b = 0x22 then orMalformed (readString rest) else .error (mismatch (b :: rest))

/-- Reads a natural number below `bound`. -/
def word (bound : Nat) : Reader Nat := fun _ s =>
  let s := skipBlanks s
  if (s.head?.map startsNumber).getD false then
    match readNumber s with
    | none => .error .malformed
    | some (.int (.ofNat n), rest) => if n < bound then .ok (n, rest) else .error .wrongShape
    | some _ => .error .wrongShape
  else .error (mismatch s)

/-- Reads a number as a floating-point number. -/
def real : Reader Float := fun _ s =>
  let s := skipBlanks s
  if (s.head?.map startsNumber).getD false then
    match readNumber s with
    | some (.float x, rest) => .ok (x, rest)
    | some (.int (.ofNat n), rest) => .ok (n.toUInt64.toFloat, rest)
    | some (.int (.negSucc n), rest) => .ok (-(n + 1).toUInt64.toFloat, rest)
    | some _ => .error .wrongShape
    | none => .error .malformed
  else .error (mismatch s)

/-! ### Composed shapes -/

/-- Reads a value or `null`. -/
def optional {α : Type} (read : Reader α) : Reader (Option α) := fun levels s =>
  let s := skipBlanks s
  if s.head? = some 0x6E then
    match readWord "null" .null s with
    | .ok (_, rest) => .ok (none, rest)
    | .error fault => .error fault
  else match read levels s with
    | .ok (a, rest) => .ok (some a, rest)
    | .error fault => .error fault

/-- Reads a list. -/
def list {α : Type} (read : Reader α) : Reader (List α) := fun levels s =>
  match skipBlanks s with
  | [] => .error .malformed
  | b :: rest =>
    if b = 0x5B then
      match levels with
      | 0 => .error .malformed
      | levels + 1 => readItems (read levels) (rest.length + 1) true rest
    else .error (mismatch (b :: rest))

/-- Reads an object of which all fields have values of one shape. -/
def tableOf {α : Type} (read : Reader α) : Reader (List (Bytes × α)) := fun levels s =>
  match skipBlanks s with
  | [] => .error .malformed
  | b :: rest =>
    if b = 0x7B then
      match levels with
      | 0 => .error .malformed
      | levels + 1 =>
        let step fields s :=
          match readField (read levels) s with
          | .error fault => .error fault
          | .ok (field, rest) => .ok (fields ++ [field], rest)
        foldFields step (rest.length + 1) true [] rest
    else .error (mismatch (b :: rest))

/-- A shape with one more demand on the value. -/
def filterMap {α β : Type} (read : Reader α) (f : α → Option β) : Reader β := fun levels s =>
  match read levels s with
  | .error fault => .error fault
  | .ok (a, rest) =>
    match f a with
    | some b => .ok (b, rest)
    | none => .error .wrongShape

/-! ### Records -/

/-- A field of a record: its name, whether it has been read, and how it is read. -/
structure Field (σ : Type) where
  name : Bytes
  isFilled : σ → Bool
  fill : σ → Reader σ

/-- A field whose value is kept in one place of the record under construction. -/
def Field.of {σ α : Type} (name : String) (read : Reader α) (get : σ → Option α)
    (put : σ → α → σ) : Field σ where
  name := utf8 name
  isFilled := fun state => (get state).isSome
  fill := fun state levels s =>
    match read levels s with
    | .error fault => .error fault
    | .ok (a, rest) => .ok (put state a, rest)

/-- One field of a record that is written as an object. -/
def recordField {σ : Type} (fields : List (Field σ)) (levels : Nat) (state : σ) (s : Bytes) :
    Except Fault (σ × Bytes) :=
  match readString s with
  | none => .error .malformed
  | some (name, rest) =>
    match fields.find? fun field => field.name = name with
    | none =>
      match skipColon rest with
      | .error fault => .error fault
      | .ok rest => (skipValue rest).map fun rest => (state, rest)
    | some field =>
      if field.isFilled state then .error .wrongShape
      else match skipColon rest with
        | .error fault => .error fault
        | .ok rest => field.fill state levels rest

/-- The fields of a record that is written as a list, up to the closing bracket. -/
def recordItems {σ α : Type} (finish : σ → Option α) (levels : Nat) :
    (fields : List (Field σ)) → (first : Bool) → σ → Bytes → Except Fault (α × Bytes)
  | fields, first, state, s =>
    match listTurn first s, fields with
    | .error fault, _ => .error fault
    | .ok (.done rest), _ =>
      match finish state with
      | some a => .ok (a, rest)
      | none => .error .wrongShape
    | .ok (.item _), [] => .error .malformed
    | .ok (.item rest), field :: fields =>
      match field.fill state levels rest with
      | .error fault => .error fault
      | .ok (state, rest) => recordItems finish levels fields false state rest

/-- Reads a record.  `finish` completes what has been read, unless a field is missing. -/
def record {σ α : Type} (fields : List (Field σ)) (start : σ) (finish : σ → Option α) :
    Reader α := fun levels s =>
  match skipBlanks s with
  | [] => .error .malformed
  | b :: rest =>
    if b = 0x7B then
      match levels with
      | 0 => .error .malformed
      | levels + 1 =>
        match foldFields (recordField fields levels) (rest.length + 1) true start rest with
        | .error fault => .error fault
        | .ok (state, rest) =>
          match finish state with
          | some a => .ok (a, rest)
          | none => .error .wrongShape
    else if b = 0x5B then
      match levels with
      | 0 => .error .malformed
      | levels + 1 => recordItems finish levels fields true start rest
    else .error (mismatch (b :: rest))

end Reader

/-! ### Whole texts -/

/-- Reads the document at the front of a text, whatever follows it. -/
def decodeFront {α : Type} (read : Reader α) (s : Bytes) : Except Fault α :=
  (read maxLevels s).map Prod.fst

/-- Reads a text that holds one document and nothing else. -/
def decode {α : Type} (read : Reader α) (s : Bytes) : Except Fault α :=
  match read maxLevels s with
  | .error fault => .error fault
  | .ok (a, rest) => if (skipBlanks rest).isEmpty then .ok a else .error .malformed

/-- Reads a text that holds one document of any shape. -/
def parse (s : Bytes) : Except Fault Json :=
  decode Reader.value s

end TimedCache.Json
