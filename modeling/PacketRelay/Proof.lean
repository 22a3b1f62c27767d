import PacketRelay.Any
import PacketRelay.Channel

/-!
# Proofs

What a query on one chain proves to another one, with the height at which it holds.
-/

namespace PacketRelay

open Schema (Message)

/-- A proof that a packet's entry is or is not in the store. -/
structure PacketProof where
  proof : Bytes
  height : Height
  deriving DecidableEq, Repr, Inhabited

/-- The proofs for a step of a connection handshake; a client state is there only where the step
needs one. -/
structure ConnectionProof where
  clientState : Option Message
  clientStateProof : Bytes
  consensusStateProof : Bytes
  connectionStateProof : Bytes
  height : Height
  deriving Repr, Inhabited

structure ChannelProof where
  proof : Bytes
  height : Height
  version : String
  ordering : ChannelOrder
  deriving Repr

/-- The result of an interchain query with the node's proof operations. -/
structure QueryProof where
  result : Bytes
  proofOps : Option Message
  height : Int
  deriving Repr, Inhabited

inductive Proof where
  | packet (p : PacketProof)
  | connection (p : ConnectionProof)
  | channel (p : ChannelProof)
  | interchainQuery (p : QueryProof)
  deriving Repr

namespace Proof

/-- The height at which a proof holds; that of an interchain query has revision zero. -/
def height : Proof → Height
  | .packet p => p.height
  | .connection p => p.height
  | .channel p => p.height
  | .interchainQuery p => ⟨0, UInt64.ofNat p.height.toNat⟩

def packet? : Proof → Option PacketProof
  | .packet p => some p
  | _ => none

end Proof

end PacketRelay
