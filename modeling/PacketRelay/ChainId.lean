import PacketRelay.Decimal.Natural
import PacketRelay.Text.Find

/-!
# Chain identifiers

A chain identifier may end in a revision: a hyphen and a numeral without leading zeros, after a name
on one line that does not itself end in a hyphen.
-/

namespace PacketRelay.ChainId

/-- Whether a text is a numeral of a positive number without leading zeros. -/
def isPositiveNumeral : List Char → Bool
  | [] => false
  | c :: cs => c ≠ '0' && (c :: cs).all Decimal.isDigit

/-- Whether a text can stand before the hyphen of a revision. -/
def isName (cs : List Char) : Bool :=
  !cs.contains '\n' && (match cs.getLast? with
    | none => false
    | some c => c ≠ '-')

/-- The revision of a chain, zero when its identifier has none or one that exceeds 64 bits. -/
def revision (id : String) : UInt64 :=
  match Text.cutLast? '-' id.toList with
  | none => 0
  | some (name, suffix) =>
    if isName name && isPositiveNumeral suffix then
      match Decimal.readUInt64 suffix with
      | .ok n => n
      | .error _ => 0
    else 0

end PacketRelay.ChainId
