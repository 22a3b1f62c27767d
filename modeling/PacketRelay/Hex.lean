import PacketRelay.Bytes
import PacketRelay.Text.Quoted

/-!
# Hexadecimal text

Two digits a byte, in either letter case when read.  A text of odd length is refused before its
characters are looked at; otherwise the first byte that is no digit is reported with its position.
-/

namespace PacketRelay.Hex

/-- The digit of a number below sixteen, letters counting up from `ten`. -/
def digit (ten : Char) (n : Nat) : Char :=
  if n < 10 then Char.ofNat (48 + n) else Char.ofNat (ten.toNat + (n - 10))

def encodeWith (ten : Char) : Bytes → List Char
  | [] => []
  | b :: rest => digit ten (b.toNat / 16) :: digit ten (b.toNat % 16) :: encodeWith ten rest

/-- Lower-case digits. -/
def encode (b : Bytes) : String := String.ofList (encodeWith 'a' b)

def encodeUpper (b : Bytes) : String := String.ofList (encodeWith 'A' b)

/-- The value of an ASCII digit in either letter case. -/
def digitValue? (b : UInt8) : Option Nat :=
  let n := b.toNat
  if 48 ≤ n ∧ n ≤ 57 then some (n - 48)
  else if 97 ≤ n ∧ n ≤ 102 then some (n - 87)
  else if 65 ≤ n ∧ n ≤ 70 then some (n - 55)
  else none

inductive Fault where
  | oddLength
  | notADigit (byte : UInt8) (position : Nat)
  deriving DecidableEq, Repr

/-- A byte that is no digit is shown as the character with its number. -/
def Fault.message : Fault → String
  | .oddLength => "Odd number of digits"
  | .notADigit byte position =>
    "Invalid character " ++ Text.quotedChar (Char.ofNat byte.toNat) ++ " at position "
      ++ Decimal.text position

/-- Reads the digits of an even number of bytes, the first one standing at `position`. -/
def decodeFrom (position : Nat) : Bytes → Except Fault Bytes
  | [] => .ok []
  | [_] => .error .oddLength
  | high :: low :: rest =>
    match digitValue? high, digitValue? low with
    | none, _ => .error (.notADigit high position)
    | some _, none => .error (.notADigit low (position + 1))
    | some h, some l => (decodeFrom (position + 2) rest).map (UInt8.ofNat (h * 16 + l) :: ·)

/-- Reads the bytes whose digits are the ASCII bytes of a text. -/
def decodeBytes (b : Bytes) : Except Fault Bytes :=
  if b.length % 2 = 1 then .error .oddLength else decodeFrom 0 b

def decode (s : String) : Except Fault Bytes := decodeBytes (Bytes.ofText s)

end PacketRelay.Hex
