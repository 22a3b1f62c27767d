/-!
# Blank space

The characters with the Unicode property `White_Space`, and texts stripped of them at both ends.
-/

namespace PacketRelay.Text

/-- The Unicode property `White_Space`. -/
def isBlank (c : Char) : Bool :=
  let n := c.toNat
  (0x09 ≤ n && n ≤ 0x0D) || n == 0x20 || n == 0x85 || n == 0xA0 || n == 0x1680
    || (0x2000 ≤ n && n ≤ 0x200A) || n == 0x2028 || n == 0x2029 || n == 0x202F
    || n == 0x205F || n == 0x3000

/-- The characters between the first and the last one that is not blank. -/
def strip (cs : List Char) : List Char :=
  ((cs.dropWhile isBlank).reverse.dropWhile isBlank).reverse

example : strip " \t a b\u00A0".toList = "a b".toList := by decide

end PacketRelay.Text
