import PacketRelay.Decimal.Binary64

/-!
# The shortest decimal of a floating-point number

Of the decimals that round to a finite number, those with the fewest digits are taken, and of these
the nearest one.  The search runs through the number of digits and tests, on each decimal grid, the
two neighbours of the value in exact arithmetic.
-/

namespace PacketRelay.Decimal

/-- A decimal `digits * 10 ^ exponent`. -/
structure Scientific where
  digits : Nat
  exponent : Int
  deriving DecidableEq, Repr

namespace Shortest

/-- The reals that round to `m * 2 ^ q`, over the common denominator: value, both ends, and the
denominator. -/
structure Interval where
  value : Nat
  lower : Nat
  upper : Nat
  denominator : Nat
  closed : Bool

def Interval.of (m : Nat) (q : Int) : Interval :=
  let narrow := m = 1 <<< 52 ∧ -1074 < q
  let (unit, den) := match q with
    | .ofNat k => (1 <<< k, 4)
    | .negSucc k => (1, 4 <<< (k + 1))
  { value := 4 * m * unit
    lower := if narrow then (4 * m - 1) * unit else (4 * m - 2) * unit
    upper := (4 * m + 2) * unit
    denominator := den
    closed := m % 2 = 0 }

/-- `10 ^ k`, as a fraction. -/
def power (k : Int) : Nat × Nat :=
  match k with
  | .ofNat n => (Nat.pow 10 n, 1)
  | .negSucc n => (1, Nat.pow 10 (n + 1))

/-- Whether `d * 10 ^ k` rounds to the value. -/
def Interval.contains (i : Interval) (d : Nat) (k : Int) : Bool :=
  let (p, r) := power k
  let x := d * p * i.denominator
  if i.closed then i.lower * r ≤ x && x ≤ i.upper * r
  else i.lower * r < x && x < i.upper * r

/-- How many times `num` must be multiplied by ten to reach `den`. -/
def leadingZeros (den : Nat) : (fuel num : Nat) → Nat
  | 0, _ => 0
  | fuel + 1, num => if den ≤ num then 0 else leadingZeros den fuel (num * 10) + 1

/-- The exponent of the least power of ten above the value. -/
def Interval.magnitude (i : Interval) : Int :=
  if i.denominator ≤ i.value then (digits (i.value / i.denominator)).length
  else 1 - (leadingZeros i.denominator 400 i.value : Int)

/-- The neighbour of the value on the grid of step `10 ^ k` that rounds to it, the nearer one if
both do, and the upper one in the middle. -/
def Interval.onGrid (i : Interval) (k : Int) : Option Nat :=
  let (p, r) := power k
  let below := i.value * r / (i.denominator * p)
  let low := i.contains below k
  let high := i.contains (below + 1) k
  if low && high then
    if 2 * (i.value * r % (i.denominator * p)) < i.denominator * p then some below
    else some (below + 1)
  else if low then some below
  else if high then some (below + 1)
  else none

/-- Tries the grids on which the value has `count`, `count + 1`, … digits. -/
def Interval.search (i : Interval) : (fuel : Nat) → (k : Int) → Scientific
  | 0, k => ⟨i.value, k⟩
  | fuel + 1, k =>
    match i.onGrid k with
    | some d => ⟨d, k⟩
    | none => i.search fuel (k - 1)

end Shortest

/-- The shortest decimal that rounds to `m * 2 ^ q`, for a positive `m`. -/
def shortest (m : Nat) (q : Int) : Scientific :=
  let i := Shortest.Interval.of m q
  i.search 17 (i.magnitude - 1)

/-- A decimal in positional notation, without an exponent. -/
def Scientific.positional (s : Scientific) : String :=
  let ds := Decimal.digits s.digits
  match s.exponent with
  | .ofNat k => String.ofList (ds ++ List.replicate k '0')
  | .negSucc k =>
    let padded := List.replicate (k + 2 - ds.length) '0' ++ ds
    let whole := padded.take (padded.length - (k + 1))
    let fraction := (padded.drop (padded.length - (k + 1))).reverse.dropWhile (· == '0') |>.reverse
    String.ofList (if fraction.isEmpty then whole else whole ++ '.' :: fraction)

/-- A floating-point number in positional notation with the fewest digits that read back. -/
def floatText (x : Float) : String :=
  if x.isNaN then "NaN"
  else
    let sign := if Binary64.isNegative x then "-" else ""
    if x.isInf then sign ++ "inf"
    else
      let (m, q) := Binary64.significandExponent x
      sign ++ (if m = 0 then "0" else (shortest m q).positional)

end PacketRelay.Decimal
