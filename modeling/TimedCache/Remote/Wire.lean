import TimedCache.Error
import TimedCache.Remote.Command

/-!
# The wire to a server

A remote backend works by **exchanges**: it sends a command and waits for the reply.  What becomes
of each exchange is decided outside: the server may answer, the connection may break, and the
context of the caller may be cancelled or run out while the reply is awaited or even before the
command is sent.

A **wire** carries the commands that have been sent so far and the exchanges that are ahead.

## Main Definitions

* `Remote.Exchange` — what becomes of one exchange
* `Remote.Wire` — the exchanges ahead and the commands sent
* `Remote.Wire.send` — sends one command
* `Remote.Wire.query` — sends one command and reads the reply
-/

namespace TimedCache.Remote

/-- What becomes of one exchange. -/
inductive Exchange where
  /-- The command is sent, and the server replies. -/
  | replied (reply : Reply)
  /-- The command is sent, but the sender gets no reply. -/
  | broken (failure : CacheError)
  /-- The context of the caller is over, and the command is not sent. -/
  | withheld (failure : CacheError)

/-- The exchanges that are ahead, and the commands that have been sent, first one first. -/
structure Wire where
  sent : List Command
  ahead : List Exchange
  deriving Inhabited

namespace Wire

/-- A wire on which nothing has been sent yet. -/
def fresh (ahead : List Exchange) : Wire := ⟨[], ahead⟩

/-- The failure of a server that says nothing more. -/
def silence : CacheError := .unavailable (utf8 "connection lost")

/-- Sends a command and waits for the reply. -/
def send (command : Command) (wire : Wire) : Except CacheError Reply × Wire :=
  match wire.ahead with
  | [] => (.error silence, ⟨wire.sent ++ [command], []⟩)
  | .replied reply :: ahead => (.ok reply, ⟨wire.sent ++ [command], ahead⟩)
  | .broken failure :: ahead => (.error failure, ⟨wire.sent ++ [command], ahead⟩)
  | .withheld failure :: ahead => (.error failure, ⟨wire.sent, ahead⟩)

/-- The failure of a reply that is not of the wanted kind, or that reports a failure. -/
def badReply : CacheError := .unavailable (utf8 "unexpected reply")

/-- Sends a command and reads the reply as the wanted kind of value. -/
def query {α : Type} (read : Reply → Option α) (command : Command) (wire : Wire) :
    Except CacheError α × Wire :=
  match wire.send command with
  | (.error failure, wire) => (.error failure, wire)
  | (.ok reply, wire) =>
    match read reply with
    | some value => (.ok value, wire)
    | none => (.error badReply, wire)

end Wire

end TimedCache.Remote
