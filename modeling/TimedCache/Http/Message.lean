import TimedCache.Text.Percent
import TimedCache.Program

/-!
# HTTP messages

Requests and responses as far as caching is concerned: method, path and query, header fields,
status and body.

**Header fields** are kept as a list in the order in which they came.  Names are lower case, and a
name may come several times.

**Targets.**  The target of a request may be in absolute form and may carry a fragment; only path
and query count.  A question mark with nothing behind it is an empty query, which is not the same
as none.

## Main Definitions

* `Http.Target` — path and query of a request
* `Http.Fields` — header fields
* `Http.Request`, `Http.Response` — the messages
* `Http.Handler` — what answers requests
-/

namespace TimedCache.Http

/-! ### Targets -/

/-- Path and query of a request. -/
structure Target where
  path : Bytes
  query : Option Bytes
  deriving DecidableEq, Repr, Inhabited

/-- Cuts off a scheme and the name of the server, if there are any. -/
def dropOrigin (text : Bytes) : Bytes :=
  let isSchemeByte (b : UInt8) : Bool := b ≠ 0x3A && b ≠ 0x2F && b ≠ 0x3F
  match Bytes.strip? (utf8 "://") (text.dropWhile isSchemeByte) with
  | some rest => rest.dropWhile fun b => b ≠ 0x2F && b ≠ 0x3F
  | none => text

/-- Reads the target of a request. -/
def Target.read (text : Bytes) : Target :=
  let text := dropOrigin (text.takeWhile (· ≠ 0x23))
  let path := text.takeWhile (· ≠ 0x3F)
  let path := if path.isEmpty then utf8 "/" else path
  match text.dropWhile (· ≠ 0x3F) with
  | [] => ⟨path, none⟩
  | _ :: query => ⟨path, some query⟩

/-! ### Header fields -/

/-- Whether a byte may occur in the name of a header field. -/
def isTokenByte (b : UInt8) : Bool :=
  isDigitByte b || (0x41 ≤ b && b ≤ 0x5A) || (0x61 ≤ b && b ≤ 0x7A)
    || (utf8 "!#$%&'*+-.^_|~").contains b || b = 0x60

/-- The name of a header field, in lower case, if the bytes can be one. -/
def fieldName? (bytes : Bytes) : Option Bytes :=
  if !bytes.isEmpty && bytes.all isTokenByte then some bytes.lower else none

/-- Whether the bytes can be the value of a header field: no control characters but tabs. -/
def isFieldValue (value : Bytes) : Bool :=
  value.all fun b => (0x20 ≤ b && b ≠ 0x7F) || b = 0x09

/-- Whether a value is text: visible ASCII characters, spaces and tabs. -/
def isVisible (value : Bytes) : Bool :=
  value.all fun b => (0x20 ≤ b && b ≤ 0x7E) || b = 0x09

/-- Header fields: names in lower case, with their values. -/
abbrev Fields := List (Bytes × Bytes)

namespace Fields

/-- All values of a name, in order. -/
def values (fields : Fields) (name : Bytes) : List Bytes :=
  (fields.filter fun field => field.1 = name).map Prod.snd

/-- The first value of a name. -/
def first? (fields : Fields) (name : Bytes) : Option Bytes :=
  (fields.values name).head?

/-- The first value of a name, if it is text. -/
def firstText? (fields : Fields) (name : Bytes) : Option Bytes :=
  (fields.first? name).filter isVisible

/-- Whether a name has a value. -/
def contains (fields : Fields) (name : Bytes) : Bool :=
  fields.any fun field => field.1 = name

/-- The fields without a name. -/
def without (fields : Fields) (name : Bytes) : Fields :=
  fields.filter fun field => field.1 ≠ name

/-- The fields in which a name has one new value and no other. -/
def replace (fields : Fields) (name value : Bytes) : Fields :=
  fields.without name ++ [(name, value)]

/-- A replaced name has the new value and no other. -/
theorem values_replace_self (fields : Fields) (name value : Bytes) :
    (fields.replace name value).values name = [value] := by
  simp [replace, without, values, List.filter_filter]

/-- Replacing one name leaves the values of all others. -/
theorem values_replace_of_ne (fields : Fields) {name other : Bytes} (value : Bytes)
    (ne : other ≠ name) : (fields.replace name value).values other = fields.values other := by
  simp only [replace, without, values, List.filter_append, List.filter_filter, List.map_append]
  have last : List.filter (fun field => decide (field.1 = other)) [(name, value)] = [] := by
    simp [ne.symm]
  rw [last, List.map_nil, List.append_nil]
  congr 1
  apply List.filter_congr
  intro field _
  by_cases h : field.1 = other
  · simp [h, ne]
  · simp [h]

end Fields

/-! ### Messages -/

/-- The body of a message. -/
inductive Body where
  /-- All bytes of the body. -/
  | whole (bytes : Bytes)
  /-- A body that breaks off while it is read. -/
  | broken
  deriving DecidableEq, Repr, Inhabited

/-- A request.  `user` is the caller, if the request has been authenticated. -/
structure Request where
  method : Bytes
  target : Target
  fields : Fields
  user : Option Bytes
  body : Bytes
  deriving DecidableEq, Repr, Inhabited

/-- A response. -/
structure Response where
  status : Nat
  fields : Fields
  body : Body
  deriving DecidableEq, Repr, Inhabited

/-- What stands for the response where a request stops before it has one.  Its status is none, and
nothing of it reaches the client. -/
def Response.missing : Response := ⟨0, [], .broken⟩

/-- Whether a status tells of success. -/
def isSuccess (status : Nat) : Bool := 200 ≤ status && status < 300

/-- Whether a number can be a status. -/
def isStatus (status : Nat) : Bool := 100 ≤ status && status < 1000

/-- What answers requests. -/
abbrev Handler := Request → Program Response

end TimedCache.Http
