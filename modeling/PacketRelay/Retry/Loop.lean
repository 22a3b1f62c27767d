import PacketRelay.Program.Basic

/-!
# Retry loops

A failed attempt is followed by another one after a pause, until one succeeds, fails for good, or
was the last.  What the loop wraps decides how a sequence mismatch is treated: a step of building a
transaction leaves it to the submission, which makes a fresh attempt.
-/

namespace PacketRelay

/-- What a retry loop wraps. -/
inductive RetryScope where
  | step
  | submission
  deriving DecidableEq, Repr

namespace RetryScope

/-- Whether a failed attempt decides the loop's result. -/
def isFinal (scope : RetryScope) (e : RelayError) : Bool :=
  !e.isRetryable || (scope = .step && e.isSequenceMismatch)

end RetryScope

namespace RetryPolicy

/-- The error after the last attempt, given the errors of all attempts in order. -/
def exhausted (p : RetryPolicy) (attempts : Nat) (history : List String) (last : RelayError) :
    RelayError :=
  if p.lastErrorOnly then last else .retriesExhausted attempts history

/-- Makes attempt number `n`, after which `left` more are allowed. -/
def attemptsFrom {α : Type} (p : RetryPolicy) (scope : RetryScope) (s : Signal)
    (operation : Nat → Attempt α) :
    (left n : Nat) → (history : List String) → Program (Except RelayError α)
  | left, n, history => do
    Program.request (.attempting n)
    match ← (Attempt.guard s (operation n)).run with
    | .ok a => return .ok a
    | .error e =>
      if scope.isFinal e then return .error e
      else match left with
        | 0 => return .error (p.exhausted n (history ++ [e.message]) e)
        | left + 1 =>
          if scope = .submission then Program.request (.retrying n e)
          match ← (Attempt.guard s (Attempt.request (.pause p.delay.millis))).run with
          | .error stopped => return .error stopped
          | .ok _ => attemptsFrom p scope s operation left (n + 1) (history ++ [e.message])

/-- Attempts an operation, which is told the number of the attempt. -/
def run {α : Type} (p : RetryPolicy) (scope : RetryScope) (s : Signal)
    (operation : Nat → Attempt α) : Attempt α :=
  attemptsFrom p scope s operation (p.attempts - 1) 1 []

/-- Attempts a step of building a transaction. -/
def step {α : Type} (p : RetryPolicy) (s : Signal) (operation : Attempt α) : Attempt α :=
  p.run .step s fun _ => operation

def submission {α : Type} (p : RetryPolicy) (s : Signal) (operation : Attempt α) : Attempt α :=
  p.run .submission s fun _ => operation

end RetryPolicy

end PacketRelay
