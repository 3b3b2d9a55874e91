import TimedCache.Program

/-!
# Attempts

Some work consists of several parts that are **all attempted**, whatever becomes of the others.
The whole succeeds if every part does; otherwise its failure is the failure of the first part that
failed.

## Main Definitions

* `firstFailure` — the result of a list of results
* `Program.sequence` — runs parts in order and collects their results
* `Program.attemptAll` — runs all parts in order
-/

namespace TimedCache

/-- The first failure of a list of results, or success. -/
def firstFailure : List (Except CacheError Unit) → Except CacheError Unit
  | [] => .ok ()
  | .error failure :: _ => .error failure
  | .ok () :: results => firstFailure results

namespace Program

/-- Runs all parts in order and collects their results. -/
def sequence {α : Type} : List (Program α) → Program (List α)
  | [] => .done []
  | part :: parts => part.bind fun a => (sequence parts).bind fun rest => .done (a :: rest)

/-- Runs all parts in order, and fails with the first failure among them. -/
def attemptAll (parts : List (Program (Except CacheError Unit))) :
    Program (Except CacheError Unit) :=
  (sequence parts).bind fun results => .done (firstFailure results)

/-- A result of which only success or failure matters. -/
def forget {α : Type} (program : Program (Except CacheError α)) :
    Program (Except CacheError Unit) :=
  program.bind fun result => .done (result.map fun _ => ())

end Program

end TimedCache
