import TimedCache.Remote.Client
import TimedCache.Sweeper

/-!
# Engines

An engine is what stands **behind a backend**: a store in the process with its sweeper, or a client
of a server.  The backend itself is no more than a handle: a number, and what never changes about it.

## Main Definitions

* `Backend` — the handle of a backend
* `Engine` — what stands behind a backend
* `Engine.perform` — performs an operation
-/

namespace TimedCache

/-- The kinds of backends. -/
inductive BackendKind where
  | inProcess
  | onServer
  deriving DecidableEq, Repr, Inhabited

/-- The word for a kind. -/
def BackendKind.name : BackendKind → Bytes
  | inProcess => utf8 "local"
  | onServer => utf8 "remote"

/-- The handle of a backend: its number, and what never changes about it. -/
structure Backend where
  id : Nat
  kind : BackendKind
  options : Options
  deriving DecidableEq, Repr, Inhabited

/-- What stands behind a backend. -/
inductive Engine where
  | inProcess (store : Store) (sweeper : Sweeper)
  | onServer (client : Remote.Client)
  deriving Inhabited

namespace Engine

/-- The engine after all sweeps that are due by `limit`. -/
def catchUp (wall : Nat → Nat) (limit : Nat) : Engine → Engine
  | inProcess store sweeper =>
    let (sweeper, store) := sweeper.catchUp wall limit store
    inProcess store sweeper
  | onServer client => onServer client

/-- The number of entries, if it is known without asking anyone. -/
def size? : Engine → Option Nat
  | inProcess store _ => some store.size
  | _ => none

/-- The logical keys of the entries in the process. -/
def logicalKeys : Engine → List Bytes
  | inProcess store _ => store.logicalKeys
  | onServer _ => []

/-- Performs an operation at wall clock `now` under a context of the given standing. -/
def perform (now : Nat) (standing : Standing) (wire : Remote.Wire) (op : Operation) :
    Engine → op.Answer × Engine × Remote.Wire
  | inProcess store sweeper =>
    let (answer, store) := store.perform now standing op
    (answer, inProcess store sweeper, wire)
  | onServer client =>
    let (answer, client, wire) := client.perform standing wire op
    (answer, onServer client, wire)

end Engine

end TimedCache
