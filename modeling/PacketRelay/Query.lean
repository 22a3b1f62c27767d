import PacketRelay.Any
import PacketRelay.Packet.Record
import PacketRelay.Program.Basic
import PacketRelay.Proof
import PacketRelay.Store

/-!
# Queries

What a provider reads from its chain: store entries with proofs, blocks, and the packets that
transactions recorded.
-/

namespace PacketRelay.Provider

open Schema (Message)

def recordRpcError (p : Provider) : Attempt Unit := Attempt.request (.record p .rpcError)

/-- The answer of a node, where a call that was not answered is counted. -/
def counted {α : Type} (p : Provider) : Except RelayError α → Attempt α
  | .ok a => pure a
  | .error e => do
    recordRpcError p
    throw e

/-- A code other than zero, or an insisted-on proof that is missing, is an error. -/
def checkAnswer (path : String) (prove : Bool) (a : QueryAnswer) : Except RelayError QueryAnswer :=
  if a.code ≠ 0 then .error (.abciQuery a.codespace a.code a.log)
  else if prove && StorePath.insistsOnProof path && a.proofOps.isNone then
    .error (.invalidResponse ("query " ++ path ++ " returned no proof"))
  else .ok a

def queryAbci (p : Provider) (path : String) (data : Bytes) (height : UInt64) (prove : Bool) :
    Attempt QueryAnswer := do
  let a ← p.counted (← Attempt.request (.call p (.abciQuery path data height prove)))
  Attempt.ofExcept (checkAnswer path prove a)

/-- A value of the store with the bytes of its proof and the height at which the proof holds. -/
structure Proven (α : Type) where
  value : α
  proof : Bytes
  height : Height
  deriving Repr

/-- The height to query for a proof at `height`: the block of a height commits to the state before
it.  Zero asks for the latest state; heights one and two cannot be proven. -/
def proofQueryHeight (height : UInt64) : Except RelayError UInt64 :=
  if height = 0 then .ok 0
  else if height ≤ 2 then .error (.invalidHeight "proof queries at height <= 2 are not supported")
  else .ok (height - 1)

/-- The message of type `merkleProof` that the operations of a node's proof make up. -/
def merkleProof (proofOps : Message) : Except RelayError Message := do
  let proofs ← (proofOps.messages 1).mapM fun op => decodeAnswer .commitmentProof (op.bytes 3)
  return Message.ofMessages 1 proofs

/-- The proven value in a node's answer. -/
def provenAnswer (p : Provider) (a : QueryAnswer) : Except RelayError (Proven Bytes) := do
  match a.proofOps with
  | none => throw (.invalidResponse "tendermint proof is nil")
  | some proofOps =>
    let proof ← merkleProof proofOps
    return ⟨a.value, proof.encode, ⟨p.revision, a.height + 1⟩⟩

/-- Reads an entry of the IBC store with a proof. -/
def queryProof (p : Provider) (height : UInt64) (key : Bytes) : Attempt (Proven Bytes) := do
  let queryHeight ← Attempt.ofExcept (proofQueryHeight height)
  let a ← p.queryAbci StorePath.ibcStore key queryHeight true
  Attempt.ofExcept (p.provenAnswer a)

def latestBlock (p : Provider) : Attempt LatestBlock := do
  p.counted (← Attempt.request (.call p .latestBlock))

def blockTime (p : Provider) (height : UInt64) : Attempt BlockTime := do
  p.counted (← Attempt.request (.call p (.blockTime height)))

def header (p : Provider) (height : UInt64) : Attempt Header := do
  if height = 0 then throw (.invalidHeight "height cannot be 0")
  let block ← p.counted (← Attempt.request (.call p (.lightBlock height)))
  Attempt.ofExcept block.header

/-- A proof of an entry whose value must not be empty. -/
def proveMember (p : Provider) (height : UInt64) (key : StoreKey) (absent : String) :
    Attempt PacketProof := do
  let proven ← p.queryProof height key.bytes
  if proven.value.isEmpty then throw (.invalidResponse absent)
  return ⟨proven.proof, proven.height⟩

/-- A proof of an entry that may also prove its absence. -/
def proveEntry (p : Provider) (height : UInt64) (key : StoreKey) : Attempt PacketProof := do
  let proven ← p.queryProof height key.bytes
  return ⟨proven.proof, proven.height⟩

def packetCommitment (p : Provider) (packet : Packet) (height : UInt64) : Attempt PacketProof :=
  p.proveMember height (.commitment packet.sourcePort packet.sourceChannel packet.sequence)
    "packet commitment not found"

def packetAcknowledgement (p : Provider) (packet : Packet) (height : UInt64) :
    Attempt PacketProof :=
  p.proveMember height (.acknowledgement packet.destPort packet.destChannel packet.sequence)
    "invalid acknowledgement"

/-- A proof that the packet was or was not received. -/
def packetReceipt (p : Provider) (packet : Packet) (height : UInt64) : Attempt PacketProof :=
  p.proveEntry height (.receipt packet.destPort packet.destChannel packet.sequence)

/-- A proof of the sequence that an ordered channel expects next. -/
def nextSequenceRecv (p : Provider) (packet : Packet) (height : UInt64) : Attempt PacketProof :=
  p.proveEntry height (.nextSequenceRecv packet.destPort packet.destChannel)

/-- The search for events of a kind with a sequence, on the side named by `side`. -/
def packetSearch (kind side channel port : String) (sequence : UInt64) : String :=
  kind ++ ".packet_" ++ side ++ "_channel='" ++ channel ++ "' AND " ++ kind ++ ".packet_" ++ side
    ++ "_port='" ++ port ++ "' AND " ++ kind ++ ".packet_sequence='" ++ Decimal.text sequence.toNat
    ++ "'"

/-- Searches for a packet and takes the one that `find` chooses. -/
def searchPacket (p : Provider) (kind side channel port : String) (sequence : UInt64)
    (find : List TxResult → Option Packet) : Attempt Packet := do
  let query := packetSearch kind side channel port sequence
  let txs ← p.counted (← Attempt.request (.call p (.txSearch query)))
  match find txs with
  | some packet => return packet
  | none =>
    throw (.invalidResponse ("no " ++ kind ++ " event for sequence " ++ Decimal.text sequence.toNat
      ++ " on " ++ port ++ "/" ++ channel))

def sentPacket (p : Provider) (channel port : String) (sequence : UInt64) : Attempt Packet :=
  p.searchPacket "send_packet" "src" channel port sequence
    fun txs => Packet.findSent txs channel port sequence

/-- The packet received with a sequence on a channel, with its acknowledgement. -/
def receivedPacket (p : Provider) (channel port : String) (sequence : UInt64) : Attempt Packet :=
  p.searchPacket "write_acknowledgement" "dst" channel port sequence
    fun txs => Packet.findReceived txs channel port sequence

/-- The client state of the counterparty's light client, with its proof. -/
def clientState (p : Provider) (height : UInt64) (client : String) : Attempt (Proven Message) := do
  let proven ← p.queryProof height (StoreKey.clientState client).bytes
  if proven.value.isEmpty then throw (.invalidResponse ("client " ++ client ++ " not found"))
  let packed := Any.ofMessage (← Attempt.ofExcept (decodeAnswer .any proven.value))
  if packed.typeUrl ≠ Schema.MessageType.clientState.typeUrl then
    throw (.decode ("expected tendermint client state, got " ++ packed.typeUrl))
  let state ← Attempt.ofExcept (decodeAnswer .clientState packed.value)
  return ⟨state, proven.proof, proven.height⟩

/-- The latest height of the light client that the chain keeps for its counterparty. -/
def trustedHeight (p : Provider) (height : UInt64) (client : String) : Attempt Height := do
  return clientLatestHeight (← p.clientState height client).value

/-- A proof of the consensus state that a client stores for a height. -/
def consensusStateProof (p : Provider) (height : UInt64) (client : String)
    (consensusHeight : Height) : Attempt PacketProof :=
  p.proveEntry height (.consensusState client consensusHeight)

def connection (p : Provider) (height : UInt64) (id : String) : Attempt (Proven Message) := do
  let proven ← p.queryProof height (StoreKey.connection id).bytes
  let value ← Attempt.ofExcept (decodeAnswer .connectionEnd proven.value)
  return { proven with value }

def channel (p : Provider) (height : UInt64) (channel port : String) :
    Attempt (Proven Message) := do
  let proven ← p.queryProof height (StoreKey.channelEnd port channel).bytes
  if proven.value.isEmpty then
    throw (.invalidResponse ("channel " ++ port ++ "/" ++ channel ++ " not found"))
  let value ← Attempt.ofExcept (decodeAnswer .channel proven.value)
  return { proven with value }

/-- Runs an interchain query, asking for a proof where the path reads a key. -/
def interchainQuery (p : Provider) (path : String) (request : Bytes) (height : UInt64) :
    Attempt QueryProof := do
  let a ← p.queryAbci path request height (StorePath.asksForProof path)
  return ⟨a.value, a.proofOps, Schema.signed a.height⟩

end PacketRelay.Provider
