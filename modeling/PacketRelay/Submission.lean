import PacketRelay.Account
import PacketRelay.Confirmation

/-!
# Submitting transactions

Messages are built into a signed transaction and broadcast under the lock on the signing key; the
sequence cache follows what the chain answered.
-/

namespace PacketRelay

/-- A transaction that the mempool accepted. -/
structure PendingTx where
  txHash : String
  /-- The sequence that it was signed with. -/
  sequence : UInt64
  /-- The job that waits for its confirmation. -/
  job : Nat
  deriving Repr

namespace SequenceState

/-- The state after an account look-up: the cache moves forward to the sequence on the chain. -/
def learn (s : SequenceState) (f : TxFactory) : SequenceState :=
  { s.advance f.sequence with accountNumber := f.accountNumber }

end SequenceState

namespace Provider

/-- The settings after an account look-up: the memo, and the cached sequence if it is ahead. -/
def withMemoAndSequence (f : TxFactory) (memo : String) (sequence : UInt64) : TxFactory :=
  { f with
    memo := if memo = "" then f.memo else memo
    sequence := sequence }

/-- Simulates, signs and encodes a transaction with known account number and sequence. -/
def assemble (p : Provider) (f : TxFactory) (msgs : List Outgoing) (s : Signal) :
    Attempt BuiltTx := do
  let policy := p.config.retry
  let anys ← Attempt.ofExcept (msgs.mapM Outgoing.toAny)
  let (_, gas) ← p.simulate f anys s
  let f := { f with gas := max gas p.config.minGas }
  let unsigned ← policy.step s (pure (p.unsignedTx f anys))
  let signed ← policy.step s (p.signTx f unsigned)
  let bytes ← policy.step s (pure signed.encode)
  return ⟨bytes, f.sequence, unsigned.fee.amount⟩

/-- Builds a transaction under a locked sequence cache.  The cache changes only through the account
look-up. -/
def build (p : Provider) (state : SequenceState) (msgs : List Outgoing) (memo : String)
    (s : Signal) : Program (SequenceState × Except RelayError BuiltTx) := do
  match ← (p.prepare p.factory s).run with
  | .error e => return (state, .error e)
  | .ok prepared =>
    let state := state.learn prepared
    let result ← (p.assemble (withMemoAndSequence prepared memo state.next) msgs s).run
    return (state, result)

/-- Counts a broadcast and judges the node's answer: the hash of an accepted transaction. -/
def judgeBroadcast (p : Provider) (tx : Bytes) (fees : List Coin) :
    Except BroadcastFailure BroadcastAnswer → Attempt String
  | .error failure => do
    Attempt.request (.record p (.broadcast false))
    match failure.response with
    | none =>
      p.recordRpcError
      throw failure.error
    | some a =>
      if a.code ≠ 0 then throw (.ofTxCode a.codespace a.code a.log) else throw failure.error
  | .ok a => do
    if a.code ≠ 0 then
      Attempt.request (.record p (.broadcast false))
      throw (.ofTxCode a.codespace a.code a.log)
    Attempt.request (.record p (.broadcast true))
    Attempt.request (.spend p fees)
    return if a.hash = "" then txHash tx else a.hash

/-- Submits a signed transaction to the mempool and leaves a job waiting for its confirmation, which
`waitSignal` can end. -/
def broadcast (p : Provider) (tx : Bytes) (fees : List Coin) (s waitSignal : Signal) :
    Attempt PendingTx := do
  let answer ← Attempt.guard s (Attempt.request (.call p (.broadcast tx)))
  let hash ← p.judgeBroadcast tx fees answer
  let job ← Attempt.request (.spawn p (.confirm hash waitSignal))
  return ⟨hash, 0, job⟩

/-- Builds and broadcasts under a locked sequence cache.  A sequence mismatch resets the cache, and
an accepted transaction moves it past its sequence. -/
def submitLocked (p : Provider) (state : SequenceState) (msgs : List Outgoing) (memo : String)
    (s waitSignal : Signal) : Program (SequenceState × Except RelayError PendingTx) := do
  let (state, result) ← p.build state msgs memo s
  match result with
  | .error e => return (state.afterFailure e, .error e)
  | .ok built =>
    match ← (p.broadcast built.bytes built.fees s waitSignal).run with
    | .error e => return (state.afterFailure e, .error e)
    | .ok pending =>
      return (state.advance (built.sequence + 1), .ok { pending with sequence := built.sequence })

/-- Builds and broadcasts messages, holding the lock on the key from the account look-up through the
broadcast. -/
def submit (p : Provider) (msgs : List Outgoing) (memo : String) (s waitSignal : Signal) :
    Attempt PendingTx := do
  let state ← Attempt.guard s (Attempt.request (.acquire p))
  let (state, result) ← ExceptT.lift (p.submitLocked state msgs memo s waitSignal)
  Attempt.request (.release p state)
  Attempt.ofExcept result

/-- Submits messages and leaves a job that reports to a caller, exactly once, the confirmation or
the error that is also the result. -/
def submitReporting (p : Provider) (msgs : List Outgoing) (memo : String) (s waitSignal : Signal)
    (caller : Nat) : Attempt Unit := do
  match ← Attempt.outcome (p.submit msgs memo s waitSignal) with
  | .ok pending =>
    let _ ← Attempt.request (.spawn p (.report caller (.ok pending.job)))
  | .error e =>
    let _ ← Attempt.request (.spawn p (.report caller (.error e)))
    throw e

/-- Submits messages, retrying the submission as a whole, and waits until the transaction is
included.  It succeeds only if the transaction executed with code zero. -/
def send (p : Provider) (msgs : List Outgoing) (memo : String) (s : Signal) :
    Attempt TxResponse := do
  let pending ← p.config.retry.submission s (p.submit msgs memo s s)
  let response ← Attempt.ofExcept (← Attempt.request (.join pending.job)).toResult
  if response.code ≠ 0 then
    throw (.executionFailed response.codespace response.code
      ("transaction failed with code: " ++ Decimal.text response.code.toNat))
  return response

/-- What a job does: it yields the confirmation that it waited for. -/
def runJob (p : Provider) : Job → Program (Option Confirmation)
  | .confirm hash s => do return some (← p.confirm hash s)
  | .report caller (.error e) => do
    Program.request (.notify caller (.error e))
    return none
  | .report caller (.ok job) => do
    let confirmation ← Program.request (.join job)
    Program.request (.notify caller confirmation.toResult)
    return none

end Provider

end PacketRelay
