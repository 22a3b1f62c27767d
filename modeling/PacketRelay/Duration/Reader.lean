import PacketRelay.Duration
import PacketRelay.Text.Blank

/-!
# Reading durations

A duration is written as one or more counts with units, such as `1h 30m` or `2.5s`, or as a lone
`0`.  Blanks may stand anywhere but inside the name of a unit.  Every count, and the seconds in
total, must fit in 64 bits.
-/

namespace PacketRelay.Duration

/-- How long a unit is, and how its fractions count. -/
inductive TimeUnit where
  /-- A nanosecond, which has no fractions. -/
  | nanosecond
  /-- A unit of nanoseconds. -/
  | ofNanos (n : Nat)
  /-- A unit of seconds with fractions in nanoseconds. -/
  | ofSeconds (n : Nat)
  /-- A unit of seconds with fractions in seconds. -/
  | ofWholeSeconds (n : Nat)
  deriving DecidableEq, Repr

/-- The units with their names.  A month is 30.44 days and a year 365.25 days. -/
def unitNames : List (List String × TimeUnit) := [
  (["nanos", "nsec", "ns"], .nanosecond),
  (["usec", "us", "µs"], .ofNanos 1000),
  (["millis", "msec", "ms"], .ofNanos 1000000),
  (["seconds", "second", "secs", "sec", "s"], .ofSeconds 1),
  (["minutes", "minute", "min", "mins", "m"], .ofSeconds 60),
  (["hours", "hour", "hr", "hrs", "h"], .ofWholeSeconds 3600),
  (["days", "day", "d"], .ofWholeSeconds 86400),
  (["weeks", "week", "wk", "wks", "w"], .ofWholeSeconds 604800),
  (["months", "month", "M"], .ofWholeSeconds 2630016),
  (["years", "year", "yr", "yrs", "y"], .ofWholeSeconds 31557600)]

def unitOf? (name : List Char) : Option TimeUnit :=
  (unitNames.find? fun entry => entry.1.contains (String.ofList name)).map (·.2)

/-- Whether a character can stand in the name of a unit. -/
def isUnitChar (c : Char) : Bool := c.isAlpha || c = 'µ'

/-- A number that fits in 64 bits. -/
def fitting (n : Nat) : Option Nat := if n < 1 <<< 64 then some n else none

/-- Reads the digits that follow those that denote `n`, and skips blanks. -/
def readCount : (n : Nat) → List Char → Option (Nat × List Char)
  | n, [] => some (n, [])
  | n, c :: cs =>
    match Decimal.digitValue? c with
    | some d => fitting (n * 10 + d) >>= (readCount · cs)
    | none => if Text.isBlank c then readCount n cs else some (n, c :: cs)

/-- A fraction `numerator / denominator`, the denominator being a power of ten. -/
structure Fraction where
  numerator : Nat
  denominator : Nat
  deriving DecidableEq, Repr

/-- Reads the digits that follow those of a fraction, and skips blanks. -/
def readFraction : Fraction → List Char → Option (Fraction × List Char)
  | f, [] => some (f, [])
  | f, c :: cs =>
    match Decimal.digitValue? c with
    | some d => do readFraction ⟨f.numerator * 10 + d, ← fitting (f.denominator * 10)⟩ cs
    | none => if Text.isBlank c then readFraction f cs else some (f, c :: cs)

/-- The fraction after a count; a point is followed by at least one digit. -/
def readFraction? : List Char → Option (Option Fraction × List Char)
  | '.' :: cs => do
    let (f, rest) ← readFraction ⟨0, 1⟩ cs
    if f.denominator = 1 then none else some (some f, rest)
  | cs => some (none, cs)

/-- Adds seconds and nanoseconds to a duration. -/
def plus (d : Duration) (seconds nanos : Nat) : Option Duration :=
  let total : Duration := ⟨d.nanos + seconds * 1000000000 + nanos⟩
  if d.subsecNanos + nanos < 1 <<< 64 ∧ total.seconds < 1 <<< 64 then some total else none

/-- `n * scale / d`, which must be whole. -/
def scaled (n scale d : Nat) : Option Nat := do
  let product ← fitting (n * scale)
  if product % d = 0 then some (product / d) else none

/-- Adds a count of units to a duration. -/
def plusCount (d : Duration) (n : Nat) : TimeUnit → Option Duration
  | .nanosecond => d.plus 0 n
  | .ofNanos scale => do d.plus 0 (← fitting (n * scale))
  | .ofSeconds scale => do d.plus (← fitting (n * scale)) 0
  | .ofWholeSeconds scale => do d.plus (← fitting (n * scale)) 0

/-- Adds a fraction of a unit to a duration. -/
def plusFraction (d : Duration) (f : Fraction) : TimeUnit → Option Duration
  | .nanosecond => none
  | .ofNanos scale => do d.plus 0 (← scaled f.numerator scale f.denominator)
  | .ofSeconds scale => do d.plus 0 (← scaled f.numerator (scale * 1000000000) f.denominator)
  | .ofWholeSeconds scale => do d.plus (← scaled f.numerator scale f.denominator) 0

/-- Reads the rest of a count of which the first digit is `n`, and adds it to a duration. -/
def readTerm (d : Duration) (n : Nat) (cs : List Char) : Option (Duration × List Char) := do
  let (n, cs) ← readCount n cs
  let (fraction, cs) ← readFraction? cs
  let unit ← unitOf? (cs.takeWhile isUnitChar)
  let d ← d.plusCount n unit
  let d ← match fraction with
    | none => some d
    | some f => d.plusFraction f unit
  return (d, cs.dropWhile isUnitChar)

/-- Reads terms up to the end of the text; `fuel` bounds their number. -/
def readTerms : (fuel : Nat) → Duration → List Char → Option Duration
  | 0, _, _ => none
  | fuel + 1, d, cs =>
    match cs.dropWhile Text.isBlank with
    | [] => some d
    | c :: rest => do
      let (d, rest) ← readTerm d (← Decimal.digitValue? c) rest
      readTerms fuel d rest

def parse? (s : String) : Option Duration :=
  if s = "0" then some ⟨0⟩
  else if s.toList.all Text.isBlank then none
  else readTerms (s.length + 1) ⟨0⟩ s.toList

example : parse? "1h 30m" = some (.ofSeconds 5400) := by decide +kernel

example : parse? "2.5s250ms" = some (.ofMillis 2750) := by decide +kernel

end PacketRelay.Duration
