import PacketRelay.Messages
import PacketRelay.Retry.Loop
import PacketRelay.Tx.Factory

/-!
# Accounts and gas

The account number and sequence that the chain holds for a key, and the gas that a transaction is
found to use when simulated.
-/

namespace PacketRelay.Provider

open Schema (Message)
open Schema.Message (ofText ofBytes)

def accountPath : String := "/cosmos.auth.v1beta1.Query/Account"

def simulatePath : String := "/cosmos.tx.v1beta1.Service/Simulate"

/-- Whether a failed query says that the account does not exist. -/
def isUnknownAccount : RelayError → Bool
  | .abciQuery _ code log =>
    QueryStatus.ofCode code = .notFound || Text.contains "not found".toList log.toList
  | _ => false

/-- The account in the answer to an account query. -/
def accountOf (address : String) (value : Bytes) : Except RelayError Message := do
  let response ← decodeAnswer .queryAccountResponse value
  match response.message? 1 with
  | none => throw (.accountNotFound address)
  | some packed =>
    let account := Any.ofMessage packed
    if account.typeUrl ≠ Schema.MessageType.baseAccount.typeUrl then
      throw (.decode ("unsupported account type " ++ account.typeUrl))
    decodeAnswer .baseAccount account.value

/-- The message of type `baseAccount` that the chain holds for an address. -/
def queryAccount (p : Provider) (address : String) : Attempt Message := do
  let request := (ofText 1 address).encode
  match ← Attempt.outcome (p.queryAbci accountPath request 0 false) with
  | .error e => if isUnknownAccount e then throw (.accountNotFound address) else throw e
  | .ok a => Attempt.ofExcept (accountOf address a.value)

def ensureAccount (p : Provider) (address : String) : Attempt Unit := do
  let _ ← p.queryAccount address

def accountNumberSequence (p : Provider) (address : String) : Attempt (UInt64 × UInt64) := do
  let account ← p.queryAccount address
  return (account.number 3, account.number 4)

/-- Fills in the account number, the sequence and the least gas.  The chain is asked for the first
two only when one of them is unset, and only unset ones are filled in. -/
def prepare (p : Provider) (f : TxFactory) (s : Signal) : Attempt TxFactory := do
  let policy := p.config.retry
  let sender ← policy.step s p.address
  policy.step s (p.ensureAccount sender)
  let f ← if f.accountNumber = 0 ∨ f.sequence = 0 then do
      let (number, sequence) ← policy.step s (p.accountNumberSequence sender)
      pure { f with
        accountNumber := if f.accountNumber = 0 then number else f.accountNumber
        sequence := if f.sequence = 0 then sequence else f.sequence }
    else pure f
  return if p.config.minGas ≠ 0 then { f with gas := p.config.minGas } else f

/-- The simulated use of gas in a message of type `simulateResponse`. -/
def simulatedGas (response : Message) : UInt64 :=
  match response.message? 1 with
  | none => 0
  | some gasInfo => gasInfo.number 2

/-- Simulates a transaction: the node's response and the adjusted gas. -/
def simulate (p : Provider) (f : TxFactory) (msgs : List Any) (s : Signal) :
    Attempt (Message × UInt64) := do
  let policy := p.config.retry
  let tx ← policy.step s (pure (p.simulationTx f msgs))
  let request := (ofBytes 2 tx).encode
  let a ← policy.step s (p.queryAbci simulatePath request 0 false)
  let response ← Attempt.ofExcept (decodeAnswer .simulateResponse a.value)
  let gas ← Attempt.ofExcept (p.adjustGas (simulatedGas response))
  return (response, gas)

end PacketRelay.Provider
