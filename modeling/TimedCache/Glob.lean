import TimedCache.Bytes

/-!
# Glob patterns

Patterns over byte strings: `*` matches any byte string, `?` any one byte, `\x` the byte `x`, and
`[…]` one byte of a class.  A class may be negated by a leading `^` or `!` and lists single bytes,
escaped bytes and ranges; a `[` that is never closed is an ordinary byte.

**Matching** is a small machine that walks pattern and text by index and remembers the latest star
together with the amount of text that the star has taken so far.  When the rest of the pattern
fails, the star takes one more byte and the walk resumes behind it.  Every read checks its index:
a read past the end would stop the machine as `strayRead`.

## Main Definitions

* `Glob.scanClass` — reads the class that starts at an index and tests one byte against it
* `Glob.step`, `Glob.run` — the machine
* `Glob.accepts` — whether a pattern matches a text
* `Glob.escape` — the pattern that matches exactly one given text
-/

namespace TimedCache.Glob

/-! ### Classes -/

/-- What reading a class found. -/
inductive ClassScan where
  /-- There is no closing bracket. -/
  | unterminated
  /-- The class ends just before `next`; `hit` tells whether the byte is among its items. -/
  | closed (hit : Bool) (next : Nat)
  /-- A read outside the pattern. -/
  | strayRead
  deriving DecidableEq, Repr

/-- Whether `c` lies between the two ends of a range, which may come in either order. -/
def inRange (a b c : UInt8) : Bool :=
  if a ≤ b then a ≤ c && c ≤ b else b ≤ c && c ≤ a

/-- Reads the items of a class from index `i` on; `hit` tells whether one has matched already.
Each round moves forward, so `fuel` need not exceed the length of the pattern. -/
def scanItems (p : Array UInt8) (c : UInt8) : (fuel i : Nat) → (hit : Bool) → ClassScan
  | 0, _, _ => .unterminated
  | fuel + 1, i, hit =>
    if i < p.size then
      match p[i]? with
      | none => .strayRead
      | some item =>
        if item = 0x5D then .closed hit (i + 1)
        else if item = 0x5C && i + 1 < p.size then
          match p[i + 1]? with
          | none => .strayRead
          | some escaped => scanItems p c fuel (i + 2) (hit || escaped = c)
        else if i + 2 < p.size then
          match p[i + 1]?, p[i + 2]? with
          | some dash, some last =>
            if dash = 0x2D && last ≠ 0x5D then
              scanItems p c fuel (i + 3) (hit || inRange item last c)
            else scanItems p c fuel (i + 1) (hit || item = c)
          | _, _ => .strayRead
        else scanItems p c fuel (i + 1) (hit || item = c)
    else .unterminated

/-- Reads the class whose opening bracket is at `start` and tests `c` against it, taking a
leading `^` or `!` as negation. -/
def scanClass (p : Array UInt8) (start : Nat) (c : UInt8) : ClassScan :=
  let first := start + 1
  if first < p.size then
    match p[first]? with
    | none => .strayRead
    | some mark =>
      if mark = 0x5E || mark = 0x21 then
        match scanItems p c p.size (first + 1) false with
        | .closed hit next => .closed (!hit) next
        | other => other
      else scanItems p c p.size first false
  else .unterminated

/-! ### The machine -/

/-- Where the machine stands: the indices into pattern and text, and the latest star, given by
the index behind it and the text index up to which it has taken the text. -/
structure State where
  pattern : Nat
  text : Nat
  star : Option (Nat × Nat)
  deriving DecidableEq, Repr

/-- What one round of the machine leads to. -/
inductive Step where
  /-- The machine goes on from here. -/
  | running (state : State)
  /-- The machine has its answer. -/
  | finished (answer : Bool)
  /-- A read outside pattern or text. -/
  | strayRead
  deriving DecidableEq, Repr

/-- What the pattern at one index makes of one byte of text. -/
inductive Move where
  /-- A star stands here; no text is taken yet. -/
  | star
  /-- The byte is matched, and the pattern goes on at `next`. -/
  | accept (next : Nat)
  /-- The byte does not match, or the pattern is used up. -/
  | refuse
  /-- A read outside the pattern. -/
  | strayRead
  deriving DecidableEq, Repr

/-- Matches one literal byte that is followed by the pattern at `next`. -/
def literal (wanted c : UInt8) (next : Nat) : Move :=
  if wanted = c then .accept next else .refuse

/-- The move at pattern index `i` for the text byte `c`. -/
def move (p : Array UInt8) (i : Nat) (c : UInt8) : Move :=
  if i < p.size then
    match p[i]? with
    | none => .strayRead
    | some b =>
      if b = 0x2A then .star
      else if b = 0x3F then .accept (i + 1)
      else if b = 0x5B then
        match scanClass p i c with
        | .closed true next => .accept next
        | .closed false _ => .refuse
        | .unterminated => literal b c (i + 1)
        | .strayRead => .strayRead
      else if b = 0x5C && i + 1 < p.size then
        match p[i + 1]? with
        | none => .strayRead
        | some escaped => literal escaped c (i + 2)
      else literal b c (i + 1)
  else .refuse

/-- Whether only stars are left from index `i` on. -/
def onlyStars (p : Array UInt8) (i : Nat) : Bool :=
  (p.toList.drop i).all (· = 0x2A)

/-- One round: at the end of the text only stars may be left; before it, the pattern moves, or
the latest star takes one more byte. -/
def step (p t : Array UInt8) (s : State) : Step :=
  if s.text < t.size then
    match t[s.text]? with
    | none => .strayRead
    | some c =>
      match move p s.pattern c with
      | .strayRead => .strayRead
      | .star => .running ⟨s.pattern + 1, s.text, some (s.pattern + 1, s.text)⟩
      | .accept next => .running ⟨next, s.text + 1, s.star⟩
      | .refuse =>
        match s.star with
        | some (behind, taken) => .running ⟨behind, taken + 1, some (behind, taken + 1)⟩
        | none => .finished false
  else .finished (onlyStars p s.pattern)

/-- At most `fuel` rounds of the machine. -/
def run (p t : Array UInt8) : (fuel : Nat) → State → Step
  | 0, s => .running s
  | fuel + 1, s =>
    match step p t s with
    | .running s' => run p t fuel s'
    | outcome => outcome

/-- Where every match starts. -/
def start : State := ⟨0, 0, none⟩

/-- The number of rounds that is always enough. -/
def rounds (p t : Array UInt8) : Nat := (t.size + 1) * (p.size + 1)

/-- Whether the pattern matches the whole text. -/
def accepts (pattern text : Bytes) : Bool :=
  let p := pattern.toArray
  let t := text.toArray
  match run p t (rounds p t) start with
  | .finished answer => answer
  | _ => false

/-! ### Escaping -/

/-- Whether a byte has a meaning of its own in patterns. -/
def isSpecial (b : UInt8) : Bool :=
  b = 0x2A || b = 0x3F || b = 0x5B || b = 0x5D || b = 0x5C

/-- The pattern that matches exactly the given text: each special byte gets a backslash. -/
def escape (text : Bytes) : Bytes :=
  text.flatMap fun b => if isSpecial b then [0x5C, b] else [b]

end TimedCache.Glob
