import TimedCache.Duration
import TimedCache.Error

/-!
# Contexts

Every operation runs under a **context**: a cancellation token and a deadline, both optional.
Tokens form a forest.  Cancelling a token cancels everything derived from it, before or after;
a derived context never outlives the deadline of the context it comes from.

Times on the monotonic clock are nanoseconds since the clock was started.

**The end of the clock.**  The clock counts seconds in 63 bits, and a timeout may reach beyond that.
The deadline is computed here all the same, but there is no such context: work that asks for it
stops there.  Whether the clock can show a deadline is told by `Context.isOnClock`.

## Main Definitions

* `TokenForest` — the tokens handed out so far, each with its parent
* `Context` — a token and a deadline
* `Context.isOnClock` — whether the clock can show the deadline
* `Standing` — whether work may go on under a context
* `TokenForest.standing` — cancellation is reported before a passed deadline
-/

namespace TimedCache

/-- A cancellation token: what it derives from, and whether it was cancelled itself. -/
structure Token where
  parent : Option Nat
  cancelRequested : Bool
  deriving DecidableEq, Repr, Inhabited

/-- The tokens handed out so far.  A token's parent was handed out before it. -/
structure TokenForest where
  tokens : Array Token
  deriving Repr, Inhabited

/-- What an operation runs under.  Without a token it cannot be cancelled. -/
structure Context where
  token : Option Nat
  deadline : Option Nat
  deriving DecidableEq, Repr, Inhabited

/-- Whether work may go on under a context. -/
inductive Standing where
  | live
  | canceled
  | pastDeadline
  deriving DecidableEq, Repr

namespace Standing

/-- The failure that a standing leads to, if any. -/
def failure? : Standing → Option CacheError
  | live => none
  | canceled => some .canceled
  | pastDeadline => some .deadlineExceeded

end Standing

namespace Context

/-- The context that never ends. -/
def background : Context := ⟨none, none⟩

/-- The context that ends `timeout` after `now`, if the clock can show that moment. -/
def timeoutAt (now : Nat) (timeout : Duration) : Context :=
  ⟨none, some (now + timeout.nanos)⟩

/-- The first moment that the clock cannot show: two to the power of 63 seconds. -/
def clockEnd : Nat := 9223372036854775808000000000

/-- Whether the clock can show the deadline. -/
def isOnClock (context : Context) : Bool :=
  context.deadline.all fun deadline => deadline < clockEnd

theorem isOnClock_timeoutAt_iff {now : Nat} {timeout : Duration} :
    (timeoutAt now timeout).isOnClock = true ↔ now + timeout.nanos < clockEnd :=
  decide_eq_true_iff

/-- The earlier of two optional deadlines. -/
def earlier : Option Nat → Option Nat → Option Nat
  | some a, some b => some (Nat.min a b)
  | none, b => b
  | a, none => a

end Context

namespace TokenForest

/-- No tokens yet. -/
def empty : TokenForest := ⟨#[]⟩

/-- Whether a token or one of the tokens above it, at most `fuel` of them in all, was
cancelled. -/
def cancelledWithin (forest : TokenForest) : (fuel token : Nat) → Bool
  | 0, _ => false
  | fuel + 1, token =>
    match forest.tokens[token]? with
    | none => false
    | some node =>
      node.cancelRequested ||
        match node.parent with
        | none => false
        | some above => cancelledWithin forest fuel above

/-- Whether a token is cancelled.  Parents come before their children, so the walk upwards takes
no more than `token + 1` steps. -/
def isCancelled (forest : TokenForest) (token : Nat) : Bool :=
  forest.cancelledWithin (token + 1) token

/-- Hands out a token below `parent`. -/
def derive (forest : TokenForest) (parent : Option Nat) : Nat × TokenForest :=
  (forest.tokens.size, ⟨forest.tokens.push ⟨parent, false⟩⟩)

/-- Cancels a token, and with it all that derives from it. -/
def cancel (forest : TokenForest) (token : Nat) : TokenForest :=
  ⟨forest.tokens.modify token fun node => { node with cancelRequested := true }⟩

/-- Whether the token of a context is cancelled. -/
def hasCancelled (forest : TokenForest) (context : Context) : Bool :=
  match context.token with
  | none => false
  | some token => forest.isCancelled token

/-- Whether work may go on under the context at time `now`. -/
def standing (forest : TokenForest) (now : Nat) (context : Context) : Standing :=
  if forest.hasCancelled context then .canceled
  else match context.deadline with
    | none => .live
    | some deadline => if deadline ≤ now then .pastDeadline else .live

/-- A new context with a token of its own and, if wanted, a deadline, which the clock must be able
to show. -/
def fresh (forest : TokenForest) (now : Nat) (timeout : Option Duration) :
    Context × TokenForest :=
  let (token, forest) := forest.derive none
  (⟨some token, timeout.map fun t => now + t.nanos⟩, forest)

/-- A context derived from `context`: cancelled with it, and ending no later.  The clock must be able
to show the end of the timeout even if the deadline of `context` comes first. -/
def child (forest : TokenForest) (now : Nat) (context : Context) (timeout : Option Duration) :
    Context × TokenForest :=
  let (token, forest) := forest.derive context.token
  (⟨some token, Context.earlier context.deadline (timeout.map fun t => now + t.nanos)⟩, forest)

end TokenForest

end TimedCache
