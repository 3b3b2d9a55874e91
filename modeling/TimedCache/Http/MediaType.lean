import TimedCache.Http.Message

/-!
# Media types

The type of a body as `type/subtype`, where the subtype may end in `+suffix` and parameters may
follow behind semicolons.  A body is JSON if its type is `application` and its subtype or its suffix
is `json`.

**Parameters** are `name=value`, where the value is a token or a quoted string.  Spaces may stand
behind a semicolon and behind a quoted string, and the last semicolon may have nothing behind it.

## Main Definitions

* `Http.MediaType` — type, subtype and suffix
* `Http.MediaType.read?` — reads a media type
* `Http.MediaType.isJson` — whether it is JSON
-/

namespace TimedCache.Http

/-- A media type without its parameters. -/
structure MediaType where
  type : Bytes
  subtype : Bytes
  suffix : Option Bytes
  deriving DecidableEq, Repr

namespace MediaType

/-- Where the reader of parameters stands. -/
inductive Place where
  /-- Behind a semicolon. -/
  | start
  /-- In the name of a parameter. -/
  | name
  /-- Behind the equals sign. -/
  | valueStart
  /-- In a value that is a token. -/
  | value
  /-- Behind an opening quotation mark. -/
  | quotedStart
  /-- In a quoted string. -/
  | quoted
  /-- Behind a quoted string. -/
  | behindQuoted
  deriving DecidableEq, Repr

/-- The place behind one more byte; none if the byte is not allowed there. -/
def Place.next : Place → UInt8 → Option Place
  | start, b => if b = 0x20 then some start else if isTokenByte b then some name else none
  | name, b => if b = 0x3D then some valueStart else if isTokenByte b then some name else none
  | valueStart, b =>
    if b = 0x22 then some quotedStart else if isTokenByte b then some value else none
  | value, b => if b = 0x3B then some start else if isTokenByte b then some value else none
  | quotedStart, b => if 0x20 ≤ b && b ≠ 0x7F then some quoted else none
  | quoted, b =>
    if b = 0x22 then some behindQuoted else if 0x20 ≤ b && b ≠ 0x7F then some quoted else none
  | behindQuoted, b => if b = 0x3B then some start else if b = 0x20 then some behindQuoted else none

/-- Whether the parameters may end at a place. -/
def Place.mayEnd : Place → Bool
  | start | valueStart | value | behindQuoted => true
  | _ => false

/-- Whether the bytes behind the first semicolon are parameters. -/
def areParameters (bytes : Bytes) : Bool :=
  match bytes.foldl (fun place b => place.bind (Place.next · b)) (some Place.start) with
  | some place => place.mayEnd
  | none => false

/-- The subtype and the suffix of what stands between slash and semicolon.  A plus sign at the
beginning belongs to the subtype. -/
def splitSuffix (bytes : Bytes) : Bytes × Option Bytes :=
  let behind := (bytes.drop 1).reverse.takeWhile (· ≠ 0x2B)
  if (bytes.drop 1).contains 0x2B then
    (bytes.take (bytes.length - behind.length - 1), some behind.reverse)
  else (bytes, none)

/-- Reads a media type. -/
def read? (text : Bytes) : Option MediaType :=
  let text := text.lower
  let type := text.takeWhile (· ≠ 0x2F)
  match text.dropWhile (· ≠ 0x2F) with
  | [] => none
  | _ :: rest =>
    let whole := rest.takeWhile (· ≠ 0x3B)
    let parameters := (rest.dropWhile (· ≠ 0x3B)).drop 1
    if !type.isEmpty && type.all isTokenByte && whole.all isTokenByte
        && (parameters.isEmpty || areParameters parameters) then
      let (subtype, suffix) := splitSuffix whole
      some ⟨type, subtype, suffix⟩
    else none

/-- Whether a body of this type is JSON. -/
def isJson (mediaType : MediaType) : Bool :=
  mediaType.type = utf8 "application"
    && (mediaType.subtype = utf8 "json" || mediaType.suffix = some (utf8 "json"))

end MediaType

/-- Whether header fields declare a JSON body. -/
def declaresJson (fields : Fields) : Bool :=
  match (fields.firstText? (utf8 "content-type")).bind MediaType.read? with
  | some mediaType => mediaType.isJson
  | none => false

end TimedCache.Http
