import PacketRelay.Duration

/-!
# Retry policies

How often a failed step is attempted, how long to pause in between, and which errors to report in
the end.
-/

namespace PacketRelay

structure RetryPolicy where
  /-- Attempts in total; zero counts as one. -/
  maxAttempts : Nat
  delay : Duration
  /-- Whether only the last error is reported, and not the history of all. -/
  lastErrorOnly : Bool
  deriving DecidableEq, Repr

namespace RetryPolicy

def standard : RetryPolicy := ⟨5, Duration.ofMillis 400, true⟩

/-- The number of attempts that may be made. -/
def attempts (p : RetryPolicy) : Nat := max 1 p.maxAttempts

end RetryPolicy

end PacketRelay
