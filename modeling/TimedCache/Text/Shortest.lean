import TimedCache.Text.Decimal

/-!
# Shortest text of floating-point numbers

A finite binary64 number is written with the **fewest decimal digits that read back** as the same
number; of several such texts the nearest to the number is taken, and of two equally near ones the
even one.

**Digits.**  A number `m · 2^q` is the rounding of an interval of reals around it, the ends
included if `m` is even.  For one digit, two digits, and so on, the two neighbours of the number
on that decimal grid are tested against the interval in exact arithmetic; the first grid with a
hit wins.

**Layout.**  Positional from `1e-5` up to below `1e16`, with `.0` after whole numbers; otherwise
with an exponent that always carries its sign.

## Main Definitions

* `Binary64` — sign, mantissa and exponent of a finite number
* `Decimal64` — the digits of a number and the place of its decimal point
* `shortestDecimal` — the digits
* `floatText` — the text of a finite number
-/

namespace TimedCache

/-- A finite number `± mantissa · 2^exponent`.  Below the least normal exponent the mantissa is
shorter; `narrow` marks a number whose lower neighbour is only half a step away. -/
structure Binary64 where
  negative : Bool
  mantissa : Nat
  exponent : Int
  narrow : Bool
  deriving DecidableEq, Repr

/-- The parts of a finite number; none for infinities and for the number that is not one. -/
def Binary64.ofFloat? (x : Float) : Option Binary64 :=
  let bits : Nat := x.toBits.toNat
  let field : Nat := bits / 4503599627370496 % 2048
  let low : Nat := bits % 4503599627370496
  let negative : Bool := decide (9223372036854775808 ≤ bits)
  if field = 2047 then none
  else if field = 0 then some ⟨negative, low, -1074, false⟩
  else some ⟨negative, 4503599627370496 + low, Int.ofNat field - 1075, decide (low = 0 ∧ 1 < field)⟩

/-- The number `digits · 10^scale`. -/
structure Decimal64 where
  digits : Nat
  scale : Int
  deriving DecidableEq, Repr

/-- The least `j` from `start` on with `den ≤ num · 10^j`; the numbers grow tenfold each round. -/
def leadingZeros (den : Nat) : (fuel num j : Nat) → Nat
  | 0, _, j => j
  | fuel + 1, num, j => if den ≤ num then j else leadingZeros den fuel (num * 10) (j + 1)

/-- The place `k` of the leading digit: the number lies in `[10^(k-1), 10^k)`. -/
def leadingPlace (num den : Nat) : Int :=
  if den ≤ num then ((natText (num / den)).length : Int)
  else 1 - (leadingZeros den 400 num 0 : Int)

/-- The digits without their trailing zeros. -/
def dropTrailingZeros : (fuel : Nat) → Decimal64 → Decimal64
  | 0, d => d
  | fuel + 1, d =>
    if d.digits ≠ 0 && d.digits % 10 = 0 then dropTrailingZeros fuel ⟨d.digits / 10, d.scale + 1⟩
    else d

/-- The neighbour on the grid of `10^scale` that reads back as the number, if one does. -/
def Binary64.nearestOnGrid (x : Binary64) (scale : Int) : Option Nat :=
  let unit := if 0 ≤ x.exponent then Nat.pow 2 x.exponent.toNat else 1
  let den := 4 * if 0 ≤ x.exponent then 1 else Nat.pow 2 (-x.exponent).toNat
  let up := if 0 ≤ scale then 1 else Nat.pow 10 (-scale).toNat
  let down := if 0 ≤ scale then Nat.pow 10 scale.toNat else 1
  let middle := 4 * x.mantissa * unit * up
  let low := (4 * x.mantissa - if x.narrow then 1 else 2) * unit * up
  let high := (4 * x.mantissa + 2) * unit * up
  let step := den * down
  let even := x.mantissa % 2 = 0
  let inside (c : Nat) : Bool :=
    if even then low ≤ c * step && c * step ≤ high else low < c * step && c * step < high
  let below := middle / step
  let above := below + 1
  match inside below, inside above with
  | true, false => some below
  | false, true => some above
  | false, false => none
  | true, true =>
    let toBelow := middle - below * step
    let toAbove := above * step - middle
    if toBelow < toAbove then some below
    else if toAbove < toBelow then some above
    else if below % 2 = 0 then some below else some above

/-- The first of the grids with `count`, `count + 1`, … digits that has a hit. -/
def Binary64.firstHit (x : Binary64) (place : Int) : (fuel count : Nat) → Option Decimal64
  | 0, _ => none
  | fuel + 1, count =>
    let scale := place - (count : Int)
    match x.nearestOnGrid scale with
    | some digits => some ⟨digits, scale⟩
    | none => firstHit x place fuel (count + 1)

/-- The shortest decimal that reads back as a positive number.  Seventeen digits always do. -/
def shortestDecimal (x : Binary64) : Decimal64 :=
  let num := if 0 ≤ x.exponent then x.mantissa * Nat.pow 2 x.exponent.toNat else x.mantissa
  let den := if 0 ≤ x.exponent then 1 else Nat.pow 2 (-x.exponent).toNat
  let place := leadingPlace num den
  dropTrailingZeros 20 ((x.firstHit place 17 1).getD ⟨num, 0⟩)

/-- The layout of a positive decimal. -/
def Decimal64.text (d : Decimal64) : Bytes :=
  let digits := natText d.digits
  let count : Int := digits.length
  let point := count + d.scale
  let zeros (n : Int) : Bytes := List.replicate n.toNat 0x30
  if -5 < point && point ≤ 16 then
    if point ≤ 0 then utf8 "0." ++ zeros (-point) ++ digits
    else if point < count then digits.take point.toNat ++ 0x2E :: digits.drop point.toNat
    else digits ++ zeros (point - count) ++ utf8 ".0"
  else
    let exponent := point - 1
    let tail := digits.drop 1
    digits.take 1 ++ (if tail.isEmpty then [] else 0x2E :: tail)
      ++ 0x65 :: (if exponent < 0 then intText exponent else 0x2B :: intText exponent)

/-- The text of a finite number; none for a number that is not finite. -/
def floatText (x : Float) : Option Bytes :=
  (Binary64.ofFloat? x).map fun parts =>
    let sign : Bytes := if parts.negative then [0x2D] else []
    if parts.mantissa = 0 then sign ++ utf8 "0.0"
    else sign ++ (shortestDecimal parts).text

end TimedCache
