import PacketRelay.Query

/-!
# Waiting for confirmation

A transaction that the mempool accepted is looked up again and again until it is found in a block,
the wait times out, or a signal fires.
-/

namespace PacketRelay.Provider

/-- The words by which a node says that it keeps no index of transactions. -/
def indexingDisabledText : String := "transaction indexing is disabled"

/-- What a look-up means for the wait: the transaction, an error that ends it, or nothing yet. -/
def judgeLookup : Except RelayError (Option TxResult) → Option (Except RelayError TxResult)
  | .ok (some r) => some (.ok r)
  | .ok none => none
  | .error .cancelled => some (.error .cancelled)
  | .error e =>
    if Text.contains indexingDisabledText.toList e.message.toList then
      some (.error .indexingDisabled)
    else none

/-- Looks a transaction up at intervals until `deadline`, which wins over a look-up at the same
time.  At most `rounds` look-ups are made. -/
def lookupUntil (p : Provider) (hash : String) (timeout : Duration) (deadline : Nat) (s : Signal) :
    (rounds : Nat) → Program (Except RelayError TxResult)
  | 0 => return .error (.confirmationTimeout hash timeout)
  | rounds + 1 => do
    let now ← Program.request .now
    let interval := p.config.pollInterval.millis
    match ← (Attempt.guard s (Attempt.request (.pause (min interval (deadline - now))))).run with
    | .error stopped => return .error stopped
    | .ok _ =>
      if deadline ≤ now + interval then return .error (.confirmationTimeout hash timeout)
      else
        let found ← (Attempt.guard s (do
          Attempt.ofExcept (← Attempt.request (.call p (.tx hash))))).run
        match judgeLookup found with
        | some result => return result
        | none =>
          match found with
          | .error _ => Program.request (.record p .rpcError)
          | .ok _ => pure ()
          lookupUntil p hash timeout deadline s rounds

/-- The most look-ups that a wait makes when there is no pause between them.  Nothing asks for such a
bound: a wait ends at its deadline, however often it looks up before.  The number only lets the
recursion end, and what a wait does after that many look-ups is not described by it. -/
def lookupLimit : Nat := 1000000000

/-- How many look-ups a wait makes at most.  If there is a pause before each, all but the last one
take at least a millisecond of the wait. -/
def lookupRounds (p : Provider) (timeout : Duration) : Nat :=
  if p.config.pollInterval.millis = 0 then lookupLimit else timeout.millis + 1

/-- Waits until a transaction is included in a block. -/
def awaitInclusion (p : Provider) (hash : String) (timeout : Duration) (s : Signal) :
    Attempt TxResult := do
  let start ← Attempt.request .now
  p.lookupUntil hash timeout (start + timeout.millis) s (p.lookupRounds timeout)

def confirmationOf : Except RelayError TxResult → Confirmation
  | .ok r =>
    if r.code = 0 then .confirmed (.ofResult r)
    else .failed (some (.ofResult r)) (.ofTxCode r.codespace r.code r.log)
  | .error (.confirmationTimeout txHash timeout) => .timedOut txHash timeout
  | .error e => .failed none e

/-- Waits for a transaction within the configured time and counts the outcome. -/
def confirm (p : Provider) (hash : String) (s : Signal) : Program Confirmation := do
  let outcome := confirmationOf (← (p.awaitInclusion hash p.config.broadcastTimeout s).run)
  Program.request (.record p (.confirmation outcome.outcome))
  return outcome

end PacketRelay.Provider
