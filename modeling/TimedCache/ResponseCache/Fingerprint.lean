import TimedCache.Digest.Sha256
import TimedCache.Http.Message

/-!
# Fingerprints of requests

A fingerprint tells apart requests that may have different responses: by method, path, query, the
values of some chosen header fields, and the caller.

**Encoding.**  Each part becomes a field of a tag, the length in eight bytes with the least
significant byte first, and the content.  Parts that are absent have no field, and a header field
that comes several times has several, so no part can pass for another.  The fingerprint is the
digest of all fields, behind a namespace.

## Main Definitions

* `Fingerprint.encode` — the fields of a request
* `Fingerprint.key` — the fingerprint
-/

namespace TimedCache.Fingerprint

open Http

/-- A field: tag, length and content. -/
def field (tag : UInt8) (content : Bytes) : Bytes :=
  tag :: (Bytes.littleEndian 8 content.length ++ content)

/-- The fields of one value of a header field: its name and the value. -/
def headerField (name value : Bytes) : Bytes :=
  field 0x48 name ++ field 0x56 value

/-- The fields of a request.  `vary` lists the header fields that count. -/
def encode (vary : List Bytes) (request : Request) : Bytes :=
  field 0x4D request.method ++ field 0x50 request.target.path
    ++ (request.target.query.toList.flatMap (field 0x51))
    ++ (vary.flatMap fun name => (request.fields.values name).flatMap (headerField name))
    ++ (request.user.toList.flatMap (field 0x55))

/-- The fingerprint of a request. -/
def key (namespaceText : Bytes) (vary : List Bytes) (request : Request) : Bytes :=
  namespaceText ++ Bytes.hex (sha256 (encode vary request))

end TimedCache.Fingerprint
