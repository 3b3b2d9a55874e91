import TimedCache.Text.Shortest

/-!
# JSON values and their text

Documents are kept as **values**: integers and floating-point numbers are told apart, strings are
UTF-8 bytes, and an object is a list of fields.

**Writing** is compact.  A string escapes the quotation mark, the backslash and the control
characters and leaves all else as it is.  A number that is not finite has no JSON text and is
written as `null`.  Fields are written in the order in which the object lists them.

## Main Definitions

* `Json` — a document
* `Json.field?` — the value of a field
* `Json.putField` — an object's fields in byte order, one for each name
* `Json.write`, `Json.text` — the text of a document
-/

namespace TimedCache

/-- A JSON document.  Strings and field names are UTF-8 bytes. -/
inductive Json where
  | null
  | bool (value : Bool)
  | int (value : Int)
  | float (value : Float)
  | str (text : Bytes)
  | arr (items : List Json)
  | obj (fields : List (Bytes × Json))
  deriving Inhabited, Repr

namespace Json

/-- A string document from a text. -/
def ofText (content : String) : Json := str (utf8 content)

/-- A document with a natural number. -/
def nat (n : Nat) : Json := int n

/-- An object from field names and values, in the given order. -/
def object (fields : List (String × Json)) : Json :=
  obj (fields.map fun field => (utf8 field.1, field.2))

/-- The value of the first field of that name. -/
def field? (name : Bytes) : Json → Option Json
  | obj fields => (fields.find? fun field => field.1 = name).map Prod.snd
  | _ => none

/-- Puts a field into fields that are in byte order; a field of the same name is replaced. -/
def putField (name : Bytes) (value : Json) : List (Bytes × Json) → List (Bytes × Json)
  | [] => [(name, value)]
  | (other, kept) :: rest =>
    if name = other then (name, value) :: rest
    else if Bytes.before name other then (name, value) :: (other, kept) :: rest
    else (other, kept) :: putField name value rest

/-! ### Writing -/

/-- One byte of a string, in front of `rest`. -/
def escapeOnto (b : UInt8) (rest : Bytes) : Bytes :=
  if b = 0x22 then 0x5C :: 0x22 :: rest
  else if b = 0x5C then 0x5C :: 0x5C :: rest
  else if b = 0x08 then 0x5C :: 0x62 :: rest
  else if b = 0x0C then 0x5C :: 0x66 :: rest
  else if b = 0x0A then 0x5C :: 0x6E :: rest
  else if b = 0x0D then 0x5C :: 0x72 :: rest
  else if b = 0x09 then 0x5C :: 0x74 :: rest
  else if b < 0x20 then
    0x5C :: 0x75 :: 0x30 :: 0x30 :: hexDigit (b.toNat / 16) :: hexDigit (b.toNat % 16) :: rest
  else b :: rest

/-- A quoted string, in front of `rest`. -/
def writeString (content : Bytes) (rest : Bytes) : Bytes :=
  0x22 :: content.foldr escapeOnto (0x22 :: rest)

mutual

/-- The text of a document, in front of `rest`. -/
def write : Json → Bytes → Bytes
  | null, rest => utf8 "null" ++ rest
  | bool true, rest => utf8 "true" ++ rest
  | bool false, rest => utf8 "false" ++ rest
  | int n, rest => intText n ++ rest
  | float x, rest => (floatText x).getD (utf8 "null") ++ rest
  | str content, rest => writeString content rest
  | arr items, rest => 0x5B :: writeItems items (0x5D :: rest)
  | obj fields, rest => 0x7B :: writeFields fields (0x7D :: rest)

/-- The items of a list, separated by commas. -/
def writeItems : List Json → Bytes → Bytes
  | [], rest => rest
  | [item], rest => write item rest
  | item :: next :: items, rest => write item (0x2C :: writeItems (next :: items) rest)

/-- The fields of an object, separated by commas. -/
def writeFields : List (Bytes × Json) → Bytes → Bytes
  | [], rest => rest
  | [(name, value)], rest => writeString name (0x3A :: write value rest)
  | (name, value) :: next :: fields, rest =>
    writeString name (0x3A :: write value (0x2C :: writeFields (next :: fields) rest))

end

/-- The compact text of a document. -/
def text (document : Json) : Bytes := write document []

end Json

end TimedCache
