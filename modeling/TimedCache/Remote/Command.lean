import TimedCache.Text.Decimal

/-!
# Commands and replies

What a remote backend says to its server, and what the server says back.  A command is sent as a
list of **words**; a reply is read as the kind of value that the command calls for, and any other
reply is a failure of the round trip.

## Main Definitions

* `Remote.Command`, `Remote.Command.words` — the commands and their words
* `Remote.Reply` — a reply
* `Remote.Reply.integer?`, `Remote.Reply.bytes?`, … — a reply as a wanted kind of value
-/

namespace TimedCache.Remote

/-- What a remote backend says to its server.  Keys are full keys. -/
inductive Command where
  | auth (user : Option Bytes) (password : Bytes)
  | select (database : Int)
  | ping
  | get (key : Bytes)
  /-- Writes a value, with a lifetime in milliseconds if there is one. -/
  | set (key value : Bytes) (onlyIfAbsent : Bool) (millis : Option Nat)
  | del (keys : List Bytes)
  | has (key : Bytes)
  | scan (cursor : Nat) (pattern : Bytes) (count : Nat)
  | incrBy (key : Bytes) (delta : Int)
  | decrBy (key : Bytes) (delta : Int)
  | mget (keys : List Bytes)
  | pttl (key : Bytes)
  deriving DecidableEq, Repr

/-- The words that set a lifetime. -/
def lifetimeWords : Option Nat → List Bytes
  | some millis => [utf8 "PX", natText millis]
  | none => []

/-- The words of a command. -/
def Command.words : Command → List Bytes
  | auth user password => utf8 "AUTH" :: (user.toList ++ [password])
  | select database => [utf8 "SELECT", intText database]
  | ping => [utf8 "PING"]
  | get key => [utf8 "GET", key]
  | set key value onlyIfAbsent millis =>
    [utf8 "SET", key, value] ++ (if onlyIfAbsent then [utf8 "NX"] else []) ++ lifetimeWords millis
  | del keys => utf8 "DEL" :: keys
  | has key => [utf8 "EXISTS", key]
  | scan cursor pattern count =>
    [utf8 "SCAN", natText cursor, utf8 "MATCH", pattern, utf8 "COUNT", natText count]
  | incrBy key delta => [utf8 "INCRBY", key, intText delta]
  | decrBy key delta => [utf8 "DECRBY", key, intText delta]
  | mget keys => utf8 "MGET" :: keys
  | pttl key => [utf8 "PTTL", key]

/-- What the server says back. -/
inductive Reply where
  | nil
  | bulk (bytes : Bytes)
  | int (value : Int)
  | status (text : Bytes)
  | array (items : List Reply)
  | failure (text : Bytes)
  deriving Repr

namespace Reply

/-- The reply as an integer. -/
def integer? : Reply → Option Int
  | int value => if fitsInt64 value then some value else none
  | bulk bytes => readInt64? bytes
  | status text => readInt64? text
  | _ => none

/-- The reply as a byte string. -/
def bytes? : Reply → Option Bytes
  | bulk bytes => some bytes
  | _ => none

/-- The reply as a byte string or nothing. -/
def optionalBytes? : Reply → Option (Option Bytes)
  | nil => some none
  | reply => reply.bytes?.map some

/-- The reply as a text. -/
def text? : Reply → Option Bytes
  | bulk bytes => if bytes.isText then some bytes else none
  | status text => some text
  | _ => none

/-- The reply as a text or nothing. -/
def optionalText? : Reply → Option (Option Bytes)
  | nil => some none
  | reply => reply.text?.map some

/-- The reply as a list; nothing is the empty list. -/
def items? : Reply → Option (List Reply)
  | nil => some []
  | array items => some items
  | _ => none

/-- The reply as a list of optional byte strings. -/
def optionalValues? (reply : Reply) : Option (List (Option Bytes)) :=
  reply.items?.bind fun items => items.mapM optionalBytes?

/-- The reply as an unsigned 64-bit integer. -/
def natural? : Reply → Option Nat
  | int value => if 0 ≤ value then some value.toNat else none
  | bulk bytes => readNat? word64 bytes
  | status text => readNat? word64 text
  | _ => none

/-- The reply as a cursor and a batch of keys. -/
def cursorAndKeys? : Reply → Option (Nat × List Bytes)
  | array [cursor, batch] =>
    match cursor.natural?, batch.items?.bind fun items => items.mapM text? with
    | some cursor, some keys => some (cursor, keys)
    | _, _ => none
  | _ => none

end Reply

end TimedCache.Remote
