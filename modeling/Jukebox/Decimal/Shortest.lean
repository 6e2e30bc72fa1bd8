/-!
# The fewest digits that read back

A finite double is `m · 2^q` with `m < 2^53`. The decimals that round to it fill an interval, ends
included when `m` is even. `shortest` looks at one decimal grid after the other, coarsest first,
and takes the first grid with a point in that interval; of two points the nearer, and of two at
the same distance the one with the even last digit. All arithmetic is on natural numbers.

Nothing is said here about how the digits are laid out: `Layout` does that.
-/
namespace Jukebox.Decimal

/-- A non-negative decimal `digits · 10^exponent`. -/
structure Scientific where
  digits : Nat
  exponent : Int
  deriving DecidableEq, Repr

/-- A finite double without its sign: `mantissa · 2^exponent`, and whether the double below it is
only half as far away as the one above. -/
structure Binary where
  mantissa : Nat
  exponent : Int
  lowerIsNear : Bool
  deriving DecidableEq, Repr

/-- Two to the 52: bound of the fraction field of the binary64 interchange format. -/
def fractionBound : Nat := 4503599627370496

/-- The exponent field, which is eleven bits wide. -/
def exponentField (bits : UInt64) : Nat :=
  bits.toNat / fractionBound % 2048

def isNegative (bits : UInt64) : Bool :=
  bits.toNat / fractionBound / 2048 = 1

def Binary.ofBits (bits : UInt64) : Binary :=
  let fraction : Nat := bits.toNat % fractionBound
  let biased := exponentField bits
  if biased = 0 then ⟨fraction, -1074, false⟩
  else ⟨fraction + fractionBound, (biased : Int) - 1075, fraction = 0 ∧ biased ≠ 1⟩

structure Interval where
  low : Nat
  value : Nat
  high : Nat
  denominator : Nat
  closed : Bool
  deriving DecidableEq, Repr

/-- The decimals that round to a double, in quarters of its last place. -/
def Binary.interval (b : Binary) : Interval :=
  let up := Nat.pow 2 b.exponent.toNat
  let down := Nat.pow 2 (-b.exponent).toNat
  { low := (4 * b.mantissa - if b.lowerIsNear then 1 else 2) * up
    value := 4 * b.mantissa * up
    high := (4 * b.mantissa + 2) * up
    denominator := 4 * down
    closed := b.mantissa % 2 = 0 }

def Interval.contains (i : Interval) (n d : Nat) : Bool :=
  if i.closed then i.low * d ≤ n * i.denominator ∧ n * i.denominator ≤ i.high * d
  else i.low * d < n * i.denominator ∧ n * i.denominator < i.high * d

/-- Number of decimal digits of a positive number; `fuel` bounds it. -/
def digitCount : Nat → Nat → Nat
  | 0, _ => 0
  | _, 0 => 0
  | fuel + 1, n + 1 => digitCount fuel ((n + 1) / 10) + 1

/-- Exponent of the first digit of a positive `n / d` that is at least `10^(-400)`. -/
def magnitude (n d : Nat) : Int :=
  (digitCount 800 (n * Nat.pow 10 400 / d) : Int) - 401

/-- The point of the grid `10^e` in the interval that is nearest to the value, if there is one. -/
def Interval.onGrid (i : Interval) (e : Int) : Option Scientific :=
  let up := Nat.pow 10 e.toNat
  let down := Nat.pow 10 (-e).toNat
  let below := i.value * down / (i.denominator * up)
  let above := below + 1
  let hitBelow := i.contains (below * up) down
  let hitAbove := i.contains (above * up) down
  let toBelow := i.value * down - below * up * i.denominator
  let toAbove := above * up * i.denominator - i.value * down
  if hitBelow ∧ hitAbove then
    if toBelow < toAbove ∨ (toBelow = toAbove ∧ below % 2 = 0) then some ⟨below, e⟩
    else some ⟨above, e⟩
  else if hitBelow then some ⟨below, e⟩
  else if hitAbove then some ⟨above, e⟩
  else none

/-- First hit among the grids `10^(first - 0)`, `10^(first - 1)`, and so on. -/
def Interval.firstHit (i : Interval) (first : Int) : Nat → Option Scientific
  | 0 => none
  | n + 1 =>
    match i.onGrid first with
    | some d => some d
    | none => i.firstHit (first - 1) n

/-- Moves trailing zeros into the exponent; `fuel` bounds their number. -/
def Scientific.normalize : Nat → Scientific → Scientific
  | 0, d => d
  | fuel + 1, d =>
    if d.digits ≠ 0 ∧ d.digits % 10 = 0 then normalize fuel ⟨d.digits / 10, d.exponent + 1⟩
    else d

/-- The shortest decimal that rounds to a positive double; seventeen digits always reach one. -/
def Binary.shortest (b : Binary) : Scientific :=
  let i := b.interval
  match i.firstHit (magnitude i.value i.denominator) 17 with
  | some d => d.normalize 400
  | none => ⟨0, 0⟩

end Jukebox.Decimal
