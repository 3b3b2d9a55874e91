import TimedCache.Json.Reader

/-!
# Codecs

A codec says how values of a type are written as documents and how documents are read back.

## Main Definitions

* `Codec` — writer and reader of a type
* `Codec.any`, `Codec.word64`, `Codec.real`, `Codec.texts` — the codecs of documents, unsigned
  64-bit integers, floating-point numbers and lists of texts
* `Codec.encode`, `Codec.decode` — values as stored bytes and back
-/

namespace TimedCache

open Json

/-- How values of a type are written and read. -/
structure Codec (α : Type) where
  json : α → Json
  reader : Reader α

namespace Codec

/-- Documents as they are. -/
def any : Codec Json := ⟨id, Reader.value⟩

/-- Unsigned 64-bit integers. -/
def word64 : Codec Nat := ⟨Json.nat, Reader.word TimedCache.word64⟩

/-- Floating-point numbers.  One that is not finite is written as `null` and cannot be read
back. -/
def real : Codec Float := ⟨Json.float, Reader.real⟩

/-- Lists of texts. -/
def texts : Codec (List Bytes) := ⟨fun items => .arr (items.map Json.str), Reader.list Reader.text⟩

variable {α : Type}

/-- The bytes of a value. -/
def encode (codec : Codec α) (value : α) : Bytes := (codec.json value).text

/-- The value of bytes, if they are one document of the right shape. -/
def decode (codec : Codec α) (data : Bytes) : Except Fault α :=
  Json.decode codec.reader data

end Codec

end TimedCache
