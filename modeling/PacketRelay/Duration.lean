import PacketRelay.Decimal.Natural

/-!
# Durations

A duration is a number of nanoseconds.  Its text uses the largest of the units second, millisecond,
microsecond and nanosecond that it fills, and a fraction without trailing zeros.
-/

namespace PacketRelay

structure Duration where
  nanos : Nat
  deriving DecidableEq, Repr, Inhabited

namespace Duration

def ofSeconds (n : Nat) : Duration := ⟨n * 1000000000⟩

def ofMillis (n : Nat) : Duration := ⟨n * 1000000⟩

def seconds (d : Duration) : Nat := d.nanos / 1000000000

/-- The nanoseconds beyond the whole seconds. -/
def subsecNanos (d : Duration) : Nat := d.nanos % 1000000000

/-- The milliseconds that a timer of this length runs.  The clock counts whole milliseconds, and a
timer does not go off early. -/
def millis (d : Duration) : Nat := d.nanos / 1000000 + min 1 (d.nanos % 1000000)

theorem seconds_subsecNanos (d : Duration) :
    d.seconds * 1000000000 + d.subsecNanos = d.nanos := by
  simp only [seconds, subsecNanos]
  omega

/-- `part` out of `10 ^ width`, as decimals without trailing zeros after a point. -/
def fractionText (width part : Nat) : List Char :=
  let ds := Decimal.digits part
  let padded := List.replicate (width - ds.length) '0' ++ ds
  let kept := (padded.reverse.dropWhile (· == '0')).reverse
  if kept.isEmpty then [] else '.' :: kept

/-- The duration in the largest unit that it fills. -/
def text (d : Duration) : String :=
  let written (width : Nat) (unit : String) : String :=
    let size := Nat.pow 10 width
    String.ofList (Decimal.digits (d.nanos / size) ++ fractionText width (d.nanos % size)) ++ unit
  if 1000000000 ≤ d.nanos then written 9 "s"
  else if 1000000 ≤ d.nanos then written 6 "ms"
  else if 1000 ≤ d.nanos then written 3 "µs"
  else written 0 "ns"

end Duration

end PacketRelay
