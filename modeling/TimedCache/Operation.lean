import TimedCache.Error
import TimedCache.Options
import TimedCache.Report
import TimedCache.Table

/-!
# Operations

What can be asked of a backend, and **which kind of answer** each question has.  The type of the
answer depends on the operation: a read answers with bytes, a count with a number, and every
answer may also be a failure.

## Main Definitions

* `Operation` — the operations
* `Operation.Value` — what an operation gives on success
* `Operation.Answer` — success or failure
-/

namespace TimedCache

/-- What can be asked of a backend. -/
inductive Operation where
  /-- The value of a key. -/
  | get (key : Bytes)
  /-- Writes a value; an empty lifetime stands for the default of the backend. -/
  | set (key value : Bytes) (ttl : Duration)
  /-- Removes a key, whether or not it is there. -/
  | delete (key : Bytes)
  /-- Whether a key has a value. -/
  | has (key : Bytes)
  /-- Removes every key of the backend. -/
  | flush
  /-- Removes every key that a glob pattern matches. -/
  | invalidate (pattern : Bytes)
  /-- Closes the backend for good. -/
  | close
  /-- What the backend tells about itself. -/
  | stats
  /-- Adds to a counter. -/
  | increment (key : Bytes) (delta : Int)
  /-- Subtracts from a counter. -/
  | decrement (key : Bytes) (delta : Int)
  /-- Writes a value unless the key has one. -/
  | setIfAbsent (key value : Bytes) (ttl : Duration)
  /-- The values of those keys that have one. -/
  | getMany (keys : List Bytes)
  /-- Writes several values with one lifetime. -/
  | setMany (entries : Table Bytes) (ttl : Duration)
  /-- How long a key has left; none if it never expires. -/
  | remaining (key : Bytes)

namespace Operation

/-- What an operation gives on success. -/
@[reducible] def Value : Operation → Type
  | get _ => Bytes
  | set _ _ _ => Unit
  | delete _ => Unit
  | has _ => Bool
  | flush => Unit
  | invalidate _ => Nat
  | close => Unit
  | stats => Report
  | increment _ _ => Int
  | decrement _ _ => Int
  | setIfAbsent _ _ _ => Bool
  | getMany _ => Table Bytes
  | setMany _ _ => Unit
  | remaining _ => Option Duration

/-- Success or failure of an operation. -/
abbrev Answer (op : Operation) : Type := Except CacheError op.Value

/-- Whether an operation works on the data of the backend; only closing does not. -/
def isData : Operation → Bool
  | close => false
  | _ => true

end Operation

end TimedCache
