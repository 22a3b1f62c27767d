import PacketRelay.Query
import PacketRelay.Retry.Loop

/-!
# Trusted fields of headers

A header can update a client only together with what the client already trusts: its latest height,
and the validators of the block after that height, to which the trusted header commits.
-/

namespace PacketRelay

open Schema (Message)

/-- The message of type `header` with other trusted fields. -/
def withTrust (header : Message) (height : Height) (validators : Message) : Message :=
  header.filter (·.1 < 3) ++ Message.ofMessage 3 height.toMessage ++ Message.ofMessage 4 validators

/-- Fills in the trusted height and the trusted validators of a header of `source`, so that it can
update a client on `dest`. -/
def injectTrust (source : Provider) (header : Message) (dest : Provider) (client : String)
    (policy : RetryPolicy) (s : Signal) : Attempt Message := do
  let queryHeight := (Height.ofMessage? (header.message? 3)).revisionHeight
  let trusted ← Attempt.guard s (dest.trustedHeight queryHeight client)
  match ← Attempt.outcome (policy.step s (source.header (trusted.revisionHeight + 1))) with
  | .error e => throw (.prunedHeader trusted.revisionHeight e)
  | .ok found => return withTrust header trusted found.validatorSet

end PacketRelay
