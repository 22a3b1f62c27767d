import PacketRelay.Messages

/-!
# Relaying packets

For a packet sent on one chain, the message that delivers it on the other chain or, if it has
expired there, the message that times it out on the first one; and the message that carries an
acknowledgement back.
-/

namespace PacketRelay

/-- The message to submit for a packet, with the proof that it carries. -/
inductive RelayMessage where
  /-- Delivers the packet on the destination. -/
  | receive (msg : Any) (proof : PacketProof)
  /-- Times the packet out on the source. -/
  | timeout (msg : Any) (proof : PacketProof) (reason : Expiry)
  deriving Repr

namespace RelayMessage

def msg : RelayMessage → Any
  | .receive msg _ => msg
  | .timeout msg _ _ => msg

def proof : RelayMessage → PacketProof
  | .receive _ proof => proof
  | .timeout _ proof _ => proof

def reason? : RelayMessage → Option Expiry
  | .receive .. => none
  | .timeout _ _ reason => some reason

/-- How a message is shown in logs: without its bytes and its proof. -/
def summary : RelayMessage → String
  | .receive msg proof =>
    "Recv \x7b msg: " ++ msg.summary ++ ", proof_height: " ++ proof.height.summary ++ " \x7d"
  | .timeout msg proof reason =>
    "Timeout \x7b msg: " ++ msg.summary ++ ", proof_height: " ++ proof.height.summary
      ++ ", reason: " ++ reason.label ++ " \x7d"

end RelayMessage

/-- Which packet to relay: the heights at which either side is looked at, the packet's sequence, and
the source's end of the channel. -/
structure RelayRequest where
  sourceHeight : UInt64
  destHeight : UInt64
  sequence : UInt64
  channel : String
  port : String
  order : ChannelOrder
  channelState : ChannelState
  deriving Repr

/-- The evidence that a packet was not received, as the channel's order calls for. -/
def Provider.unreceivedProof (dest : Provider) (packet : Packet) (height : UInt64) :
    ChannelOrder → Attempt PacketProof
  | .unordered => dest.packetReceipt packet height
  | .ordered => dest.nextSequenceRecv packet height

/-- The rule by which a judged packet expired, none if it can be delivered. -/
def expiryOf : Except PacketError Unit → Except RelayError (Option Expiry)
  | .ok _ => .ok none
  | .error e =>
    match e.expiry? with
    | some reason => .ok (some reason)
    | none => .error (.packet e)

/-- Decides how to relay a packet.  It is judged by the destination's block at the requested height;
a deliverable one is proven by its commitment on the source, an expired one by evidence from the
destination at the height it was judged at. -/
def relayPacket (dest source : Provider) (r : RelayRequest) (s : Signal) :
    Attempt RelayMessage := do
  let packet ← Attempt.guard s (source.sentPacket r.channel r.port r.sequence)
  let time ← Attempt.guard s (dest.blockTime r.destHeight)
  let judged := packet.validate ⟨r.destHeight, time⟩ dest.chainId r.channelState
  match ← Attempt.ofExcept (expiryOf judged) with
  | none =>
    let proof ← Attempt.guard s (source.packetCommitment packet r.sourceHeight)
    return .receive (← dest.recvPacket packet proof) proof
  | some reason =>
    let proof ← Attempt.guard s (dest.unreceivedProof packet r.destHeight r.order)
    let msg ← match reason with
      | .channelClosed => source.timeoutOnClose packet proof
      | _ => source.timeoutPacket packet proof
    return .timeout msg proof reason

/-- The message that carries to `source` the acknowledgement of a packet received on `dest`. -/
def relayAcknowledgement (source dest : Provider) (destHeight sequence : UInt64)
    (channel port : String) (s : Signal) : Attempt Any := do
  let packet ← Attempt.guard s (dest.receivedPacket channel port sequence)
  let proof ← Attempt.guard s (dest.packetAcknowledgement packet destHeight)
  source.acknowledgePacket packet proof

end PacketRelay
