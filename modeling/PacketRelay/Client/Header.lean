import PacketRelay.ChainId
import PacketRelay.Duration
import PacketRelay.Error.Basic

/-!
# Light-client headers and client states

A header is a signed header with the validators that signed it.  From headers are made the client
states that track a chain and the headers that update them.
-/

namespace PacketRelay

open Schema (Message)

/-- The answer of a node to a request for a block's header and validators. -/
structure LightBlock where
  signedHeader : Option Message
  validatorSet : Option Message
  deriving Repr, Inhabited

/-- A signed header and the validator set that signed it. -/
structure Header where
  signedHeader : Message
  validatorSet : Message
  deriving Repr, Inhabited

/-- The height in a signed header, zero when it is absent or negative. -/
def signedHeaderHeight (m : Message) : UInt64 :=
  match m.message? 1 with
  | none => 0
  | some block => if Schema.signed (block.number 3) < 0 then 0 else block.number 3

namespace LightBlock

def height (b : LightBlock) : UInt64 :=
  match b.signedHeader with
  | none => 0
  | some m => signedHeaderHeight m

/-- The header of a light block with both of its parts. -/
def header (b : LightBlock) : Except RelayError Header :=
  match b.signedHeader, b.validatorSet with
  | none, _ => .error (.invalidResponse "light block without signed header")
  | some _, none => .error (.invalidResponse "light block without validator set")
  | some signedHeader, some validatorSet => .ok ⟨signedHeader, validatorSet⟩

end LightBlock

namespace Header

def height (h : Header) : UInt64 := signedHeaderHeight h.signedHeader

/-- The message of type `header` that moves a client from what it trusts to this header. -/
def update (latest : Header) (trustedHeight : Height) (trusted : Header) : Message :=
  Message.ofMessage 1 latest.signedHeader ++ Message.ofMessage 2 latest.validatorSet
    ++ Message.ofMessage 3 trustedHeight.toMessage ++ Message.ofMessage 4 trusted.validatorSet

end Header

def Duration.toMessage (d : Duration) : Message :=
  Message.ofNumber 1 (UInt64.ofNat d.seconds) ++ Message.ofNumber 2 (UInt64.ofNat d.subsecNanos)

/-- How far a header's time may lie ahead. -/
def maxClockDrift : Duration := Duration.ofSeconds 600

/-- The store path under which upgraded clients are committed. -/
def upgradePath : List String := ["upgrade", "upgradedIBCState"]

structure ClientTerms where
  trustingPeriod : Duration
  unbondingPeriod : Duration
  updateAfterExpiry : Bool
  updateAfterMisbehaviour : Bool

/-- The message of type `clientState` that tracks a chain from a header onward.  Proof
specifications are left for the host chain to fill in. -/
def newClientState (chainId : String) (header : Header) (terms : ClientTerms) : Message :=
  Message.ofText 1 chainId
    ++ Message.ofMessage 2 (Message.ofNumber 1 1 ++ Message.ofNumber 2 3)
    ++ Message.ofMessage 3 terms.trustingPeriod.toMessage
    ++ Message.ofMessage 4 terms.unbondingPeriod.toMessage
    ++ Message.ofMessage 5 maxClockDrift.toMessage
    ++ Message.ofMessage 6 Height.zero.toMessage
    ++ Message.ofMessage 7 (Height.mk (ChainId.revision chainId) header.height).toMessage
    ++ Message.ofTexts 9 upgradePath
    ++ Message.ofBool 10 terms.updateAfterExpiry
    ++ Message.ofBool 11 terms.updateAfterMisbehaviour

def clientLatestHeight (clientState : Message) : Height :=
  Height.ofMessage? (clientState.message? 7)

end PacketRelay
