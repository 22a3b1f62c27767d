import PacketRelay.Query

/-!
# Proofs for handshakes

What a step of a connection or channel handshake proves about the other chain.
-/

namespace PacketRelay

open Schema (Message)

/-- The ends of a connection as seen from the chain that runs a step. -/
structure ConnectionInfo where
  height : UInt64
  connectionId : String
  clientId : String
  counterpartyClientId : String
  counterpartyConnectionId : String
  /-- The key prefix under which the counterparty commits its store. -/
  counterpartyPrefix : Option Bytes
  deriving Repr

/-- The ends of a channel as seen from the chain that runs a step. -/
structure ChannelInfo where
  height : UInt64
  portId : String
  channelId : String
  counterpartyPortId : String
  counterpartyChannelId : String
  connectionId : String
  counterpartyConnectionId : String
  order : ChannelOrder
  version : String
  deriving Repr

namespace Provider

/-- Judges the answer to a query of the application. -/
def judgeAnswer (p : Provider) (path : String) (prove : Bool) (r : Except RelayError QueryAnswer) :
    Attempt QueryAnswer := do
  Attempt.ofExcept (checkAnswer path prove (← p.counted r))

/-- The proof in an answer about the consensus state. -/
def consensusAnswer (p : Provider) (r : Except RelayError QueryAnswer) :
    Attempt (Proven Bytes) := do
  Attempt.ofExcept (p.provenAnswer (← p.judgeAnswer StorePath.ibcStore true r))

/-- The connection end and proof in an answer about the connection. -/
def connectionAnswer (p : Provider) (r : Except RelayError QueryAnswer) :
    Attempt (Proven Message) := do
  let proven ← p.consensusAnswer r
  let value ← Attempt.ofExcept (decodeAnswer .connectionEnd proven.value)
  return { proven with value }

/-- Asks for a consensus state and a connection at once, the consensus state first.  The first error
to arrive wins, and an answer that is an error at once keeps the second question from being
asked. -/
def consensusAndConnection (p : Provider) (height : UInt64) (client connection : String)
    (consensusHeight : Height) : Attempt (Proven Bytes × Proven Message) := do
  let queryHeight ← Attempt.ofExcept (proofQueryHeight height)
  let ask (key : StoreKey) : NodeCall := .abciQuery StorePath.ibcStore key.bytes queryHeight true
  let first := StoreKey.consensusState client consensusHeight
  let second := StoreKey.connection connection
  match ← Attempt.request (.start p (ask first)) with
  | .inl r =>
    let a ← p.consensusAnswer r
    let b ← p.connectionAnswer (← Attempt.request (.call p (ask second)))
    return (a, b)
  | .inr ticket =>
    match ← Attempt.request (.start p (ask second)) with
    | .inl r =>
      let b ← p.connectionAnswer r
      let a ← p.consensusAnswer (← Attempt.request (.await (ask first) ticket))
      return (a, b)
    | .inr ticket' =>
      match ← Attempt.request (.awaitEither (ask first) ticket (ask second) ticket') with
      | .inl r =>
        let a ← p.consensusAnswer r
        let b ← p.connectionAnswer (← Attempt.request (.await (ask second) ticket'))
        return (a, b)
      | .inr r =>
        let b ← p.connectionAnswer r
        let a ← p.consensusAnswer (← Attempt.request (.await (ask first) ticket))
        return (a, b)

/-- The client state of the counterparty, and the proofs of it, of its latest consensus state and of
the connection, with the height of the last one. -/
def handshakeProof (p : Provider) (height : UInt64) (client connection : String) :
    Attempt ConnectionProof := do
  let state ← p.clientState height client
  let (consensus, found) ← p.consensusAndConnection height client connection
    (clientLatestHeight state.value)
  return {
    clientState := some state.value
    clientStateProof := state.proof
    consensusStateProof := consensus.proof
    connectionStateProof := found.proof
    height := found.height }

/-- The proofs for the second and third step of a connection handshake. -/
def connectionHandshakeProof (p : Provider) (info : ConnectionInfo) (height : UInt64) :
    Attempt ConnectionProof := do
  let proof ← p.handshakeProof height info.clientId info.connectionId
  if proof.connectionStateProof.isEmpty then
    throw (.invalidResponse "received invalid zero-length connection state proof")
  return proof

/-- The proof for the last step of a connection handshake. -/
def connectionProof (p : Provider) (info : ConnectionInfo) (height : UInt64) :
    Attempt ConnectionProof := do
  let found ← p.connection height info.connectionId
  return {
    clientState := none
    clientStateProof := []
    consensusStateProof := []
    connectionStateProof := found.proof
    height := found.height }

/-- The proof of a channel end with its version and order. -/
def channelProof (p : Provider) (info : ChannelInfo) (height : UInt64) : Attempt ChannelProof := do
  let found ← p.channel height info.channelId info.portId
  match ChannelOrder.ofCode? (found.value.number 2) with
  | none =>
    throw (.invalidResponse
      ("channel " ++ info.portId ++ "/" ++ info.channelId ++ " has no ordering"))
  | some ordering => return ⟨found.proof, found.height, found.value.text 5, ordering⟩

end Provider

end PacketRelay
