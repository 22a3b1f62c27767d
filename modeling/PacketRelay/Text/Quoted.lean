import PacketRelay.Decimal.Natural
import PacketRelay.Text.Unprintable

/-!
# Quoted text

A text between quotes, in which the quote itself and the backslash follow a backslash, the common
control characters have letters, and every other character without a visible form of its own is
written by its number in hexadecimal.
-/

namespace PacketRelay.Text

/-- The lower-case hexadecimal numeral of `n` without leading zeros. -/
def hexDigits (n : Nat) : List Char :=
  let digit (d : Nat) : Char := if d < 10 then Char.ofNat (48 + d) else Char.ofNat (87 + d)
  if n < 16 then [digit n] else hexDigits (n / 16) ++ [digit (n % 16)]

/-- A character as it stands between two `quote`s. -/
def escape (quote c : Char) : List Char :=
  if c = '\x00' then ['\\', '0']
  else if c = '\t' then ['\\', 't']
  else if c = '\r' then ['\\', 'r']
  else if c = '\n' then ['\\', 'n']
  else if c = '\\' ∨ c = quote then ['\\', c]
  else if isVisible c then [c]
  else ['\\', 'u', '\x7b'] ++ hexDigits c.toNat ++ ['\x7d']

def quoted (s : String) : String :=
  String.ofList (['"'] ++ s.toList.flatMap (escape '"') ++ ['"'])

def quotedChar (c : Char) : String :=
  String.ofList (['\''] ++ escape '\'' c ++ ['\''])


end PacketRelay.Text
