import TimedCache.Json.Reader
import TimedCache.Text.Blank

/-!
# Requests to the management interface

The documents that clients send, and **which of them are accepted**.  A key must have between 1 and
256 bytes; a pattern must hold more than blanks.

## Main Definitions

* `SetRequest`, `InvalidateRequest` — the documents
* `keyObjection?` — why a key is refused
* `SetRequest.objection?`, `InvalidateRequest.objection?` — why a document is refused
-/

namespace TimedCache

open Json

/-- The longest key that the management interface accepts. -/
def maxKeyLength : Nat := 256

/-- Why a key is refused; none if it is accepted. -/
def keyObjection? (key : Bytes) : Option Bytes :=
  if key.isEmpty then some (utf8 "Key cannot be empty")
  else if maxKeyLength < key.length then
    some (utf8 "Key exceeds maximum length of " ++ natText maxKeyLength ++ utf8 " characters")
  else none

/-- A document to be stored under a key, with a lifetime in seconds. -/
structure SetRequest where
  key : Bytes
  value : Json
  ttl : Option Nat
  deriving Inhabited

namespace SetRequest

/-- Why the request is refused. -/
def objection? (request : SetRequest) : Option Bytes := keyObjection? request.key

/-- The parts of a request that have been read. -/
structure Draft where
  key : Option Bytes
  value : Option Json
  ttl : Option (Option Nat)

/-- Completes a draft; only the lifetime may be missing. -/
def Draft.finish (draft : Draft) : Option SetRequest :=
  match draft.key, draft.value with
  | some key, some value => some ⟨key, value, draft.ttl.join⟩
  | _, _ => none

/-- Reads a request. -/
def reader : Reader SetRequest :=
  .record
    [.of "key" Reader.text Draft.key fun draft key => { draft with key := some key },
      .of "value" Reader.value Draft.value fun draft value => { draft with value := some value },
      .of "ttl" (.optional (.word word64)) Draft.ttl fun draft ttl => { draft with ttl := some ttl }]
    ⟨none, none, none⟩ Draft.finish

end SetRequest

/-- A pattern of keys to be removed. -/
structure InvalidateRequest where
  pattern : Bytes
  deriving Inhabited

namespace InvalidateRequest

/-- Why the request is refused. -/
def objection? (request : InvalidateRequest) : Option Bytes :=
  if request.pattern.isBlankText then some (utf8 "Pattern cannot be empty") else none

/-- Reads a request. -/
def reader : Reader InvalidateRequest :=
  .record [.of "pattern" Reader.text id fun _ pattern => some pattern] none
    fun pattern => pattern.map InvalidateRequest.mk

end InvalidateRequest

end TimedCache
