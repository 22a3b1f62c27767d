import PacketRelay.Error.Basic
import PacketRelay.Text.Blank

/-!
# Gas and fees

A gas price is an amount per unit of gas in some denomination.  Fees are rounded up.
-/

namespace PacketRelay

open Schema (Message)

structure Coin where
  denom : String
  amount : String
  deriving DecidableEq, Repr, Inhabited

def Coin.toMessage (c : Coin) : Message := Message.ofText 1 c.denom ++ Message.ofText 2 c.amount

structure GasPrice where
  amount : Float
  denom : String
  deriving Repr, Inhabited

namespace GasPrice

/-- Whether a character can stand in the amount of a gas price. -/
def isAmountChar (c : Char) : Bool := Decimal.isDigit c || c = '.'

/-- Reads digits and points followed by a denomination, within blanks. -/
def parse (s : String) : Except RelayError GasPrice :=
  let body := Text.strip s.toList
  let amount := body.takeWhile isAmountChar
  let denom := body.dropWhile isAmountChar
  if amount.isEmpty || denom.isEmpty then
    .error (.config ("invalid gas price format: " ++ Text.quoted (String.ofList body)))
  else match Decimal.readFloat amount with
    | .error fault => .error (.config ("invalid gas price amount: " ++ fault.message))
    | .ok x => .ok ⟨x, String.ofList denom⟩

/-- The fee owed for an amount of gas. -/
def fee (p : GasPrice) (gas : UInt64) : Coin :=
  let owed := (Decimal.Binary64.ofNat gas.toNat * p.amount).ceil
  ⟨p.denom, Decimal.text (Decimal.Binary64.truncate (1 <<< 128 - 1) owed)⟩

end GasPrice

/-- Scales simulated gas by an adjustment, bounded by `maxGas` unless that is zero.  No gas stays no
gas. -/
def adjustGas (gasUsed : UInt64) (adjustment : Float) (maxGas : UInt64) :
    Except RelayError UInt64 :=
  if gasUsed = 0 then .ok 0
  else
    let gas := adjustment * Decimal.Binary64.ofNat gasUsed.toNat
    if gas.isInf && 0 < gas then .error (.infiniteGas gasUsed adjustment)
    else
      let limit := Decimal.Binary64.ofNat maxGas.toNat
      let bounded := if 0 < maxGas && !(gas < limit) then limit else gas
      .ok (UInt64.ofNat (Decimal.Binary64.truncate (1 <<< 64 - 1) bounded))

end PacketRelay
