/-!
# Sets of characters as ranges

A large set of characters is given by the ranges of their numbers, in ascending order.
-/

namespace PacketRelay.Text

/-- Whether `n` lies in one of the ranges with index from `low` up to `high`, found by halving. -/
def inRanges (ranges : Array (Nat × Nat)) (n low high : Nat) : Bool :=
  if low < high then
    let middle := (low + high) / 2
    match ranges[middle]? with
    | none => false
    | some (first, last) =>
      if n < first then inRanges ranges n low middle
      else if last < n then inRanges ranges n (middle + 1) high
      else true
  else false
termination_by high - low

/-- Whether the number of a character lies in one of the ranges. -/
def isAmong (c : Char) (ranges : Array (Nat × Nat)) : Bool :=
  inRanges ranges c.toNat 0 ranges.size

end PacketRelay.Text
