import PacketRelay.Handshake

/-!
# Messages for a chain

The messages that a provider has its key sign: transfers, client updates, packets, and the steps of
connection and channel handshakes.
-/

namespace PacketRelay.Provider

open Schema (Message MessageType)
open Schema.Message (ofNumber ofText ofBytes ofMessage ofMessage? ofMessages ofTexts)

def address (p : Provider) : Attempt String := Attempt.demand (Program.request (.address p))

/-- Packs a message that names the key's address in one of its fields. -/
def signedBy (p : Provider) (t : MessageType) (m : String → Message) : Attempt Any := do
  return Any.pack t (m (← p.address))

/-- The one version of connections that every chain supports. -/
def connectionVersion : Message :=
  ofText 1 "1" ++ ofTexts 2 ["ORDER_ORDERED", "ORDER_UNORDERED"]

def merklePrefix (keyPrefix : Bytes) : Message := ofBytes 1 keyPrefix

def storePrefix : Message := merklePrefix (Bytes.ofText "ibc")

/-- A transfer of a coin to a receiver on the other chain.  A zero timeout height is left out. -/
def transfer (p : Provider) (receiver : String) (amount : Coin) (packet : Packet) : Attempt Any :=
  p.signedBy .msgTransfer fun sender =>
    ofText 1 packet.sourcePort ++ ofText 2 packet.sourceChannel ++ ofMessage 3 amount.toMessage
      ++ ofText 4 sender ++ ofText 5 receiver
      ++ (if packet.timeoutHeight.revisionHeight = 0 then []
        else ofMessage 6 packet.timeoutHeight.toMessage)
      ++ ofNumber 7 packet.timeoutTimestamp

def createClient (p : Provider) (clientState consensusState : Any) : Attempt Any :=
  p.signedBy .msgCreateClient fun signer =>
    ofMessage 1 clientState.toMessage ++ ofMessage 2 consensusState.toMessage ++ ofText 3 signer

def updateClient (p : Provider) (client : String) (header : Any) : Attempt Any :=
  p.signedBy .msgUpdateClient fun signer =>
    ofText 1 client ++ ofMessage 2 header.toMessage ++ ofText 3 signer

/-- Moves a client to the states that the counterparty committed for its upgrade. -/
def upgradeClient (p : Provider) (client : String) (clientState consensusState : Any)
    (clientProof consensusProof : Bytes) : Attempt Any :=
  p.signedBy .msgUpgradeClient fun signer =>
    ofText 1 client ++ ofMessage 2 clientState.toMessage ++ ofMessage 3 consensusState.toMessage
      ++ ofBytes 4 clientProof ++ ofBytes 5 consensusProof ++ ofText 6 signer

def submitMisbehaviour (p : Provider) (client : String) (misbehaviour : Any) : Attempt Any :=
  p.signedBy .msgSubmitMisbehaviour fun signer =>
    ofText 1 client ++ ofMessage 2 misbehaviour.toMessage ++ ofText 3 signer

def recvPacket (p : Provider) (packet : Packet) (proof : PacketProof) : Attempt Any :=
  p.signedBy .msgRecvPacket fun signer =>
    ofMessage 1 packet.toMessage ++ ofBytes 2 proof.proof ++ ofMessage 3 proof.height.toMessage
      ++ ofText 4 signer

def acknowledgePacket (p : Provider) (packet : Packet) (proof : PacketProof) : Attempt Any :=
  p.signedBy .msgAcknowledgement fun signer =>
    ofMessage 1 packet.toMessage ++ ofBytes 2 packet.ack ++ ofBytes 3 proof.proof
      ++ ofMessage 4 proof.height.toMessage ++ ofText 5 signer

def timeoutPacket (p : Provider) (packet : Packet) (proof : PacketProof) : Attempt Any :=
  p.signedBy .msgTimeout fun signer =>
    ofMessage 1 packet.toMessage ++ ofBytes 2 proof.proof ++ ofMessage 3 proof.height.toMessage
      ++ ofNumber 4 packet.sequence ++ ofText 5 signer

/-- Times a packet out whose channel is closed; that the channel is closed is not proven. -/
def timeoutOnClose (p : Provider) (packet : Packet) (proof : PacketProof) : Attempt Any :=
  p.signedBy .msgTimeoutOnClose fun signer =>
    ofMessage 1 packet.toMessage ++ ofBytes 2 proof.proof ++ ofMessage 4 proof.height.toMessage
      ++ ofNumber 5 packet.sequence ++ ofText 6 signer

def connectionOpenInit (p : Provider) (info : ConnectionInfo) : Attempt Any :=
  p.signedBy .msgConnectionOpenInit fun signer =>
    ofText 1 info.clientId
      ++ ofMessage 2 (ofText 1 info.counterpartyClientId
        ++ ofMessage? 3 (info.counterpartyPrefix.map merklePrefix))
      ++ ofText 5 signer

/-- The packed client state of a connection proof and its latest height. -/
def packedClientState (proof : ConnectionProof) : Except RelayError (Any × Height) :=
  match proof.clientState with
  | none => .error (.invalidResponse "connection proof carries no client state")
  | some state => .ok (Any.pack .clientState state, clientLatestHeight state)

def connectionOpenTry (p : Provider) (info : ConnectionInfo) (proof : ConnectionProof) :
    Attempt Any := do
  let (clientState, consensusHeight) ← Attempt.ofExcept (packedClientState proof)
  p.signedBy .msgConnectionOpenTry fun signer =>
    ofText 1 info.counterpartyClientId ++ ofText 2 info.counterpartyConnectionId
      ++ ofMessage 3 clientState.toMessage
      ++ ofMessage 4
        (ofText 1 info.clientId ++ ofText 2 info.connectionId ++ ofMessage 3 storePrefix)
      ++ ofMessages 6 [connectionVersion] ++ ofMessage 7 proof.height.toMessage
      ++ ofBytes 8 proof.connectionStateProof ++ ofBytes 9 proof.clientStateProof
      ++ ofBytes 10 proof.consensusStateProof ++ ofMessage 11 consensusHeight.toMessage
      ++ ofText 12 signer

def connectionOpenAck (p : Provider) (info : ConnectionInfo) (proof : ConnectionProof) :
    Attempt Any := do
  let (clientState, consensusHeight) ← Attempt.ofExcept (packedClientState proof)
  p.signedBy .msgConnectionOpenAck fun signer =>
    ofText 1 info.counterpartyConnectionId ++ ofText 2 info.connectionId
      ++ ofMessage 3 connectionVersion ++ ofMessage 4 clientState.toMessage
      ++ ofMessage 5 proof.height.toMessage ++ ofBytes 6 proof.connectionStateProof
      ++ ofBytes 7 proof.clientStateProof ++ ofBytes 8 proof.consensusStateProof
      ++ ofMessage 9 consensusHeight.toMessage ++ ofText 10 signer

def connectionOpenConfirm (p : Provider) (info : ConnectionInfo) (proof : ConnectionProof) :
    Attempt Any :=
  p.signedBy .msgConnectionOpenConfirm fun signer =>
    ofText 1 info.counterpartyConnectionId ++ ofBytes 2 proof.connectionStateProof
      ++ ofMessage 3 proof.height.toMessage ++ ofText 4 signer

/-- The message of type `channel` for a channel end. -/
def channelEnd (state : UInt64) (order : ChannelOrder) (port channel connection version : String) :
    Message :=
  ofNumber 1 state ++ ofNumber 2 order.code ++ ofMessage 3 (ofText 1 port ++ ofText 2 channel)
    ++ ofTexts 4 [connection] ++ ofText 5 version

def channelOpenInit (p : Provider) (info : ChannelInfo) : Attempt Any :=
  p.signedBy .msgChannelOpenInit fun signer =>
    ofText 1 info.portId
      ++ ofMessage 2
        (channelEnd 1 info.order info.counterpartyPortId "" info.connectionId info.version)
      ++ ofText 3 signer

/-- The channel takes over the version of the counterparty. -/
def channelOpenTry (p : Provider) (info : ChannelInfo) (proof : ChannelProof) : Attempt Any :=
  p.signedBy .msgChannelOpenTry fun signer =>
    ofText 1 info.counterpartyPortId ++ ofText 2 info.counterpartyChannelId
      ++ ofMessage 3 (channelEnd 2 proof.ordering info.portId info.channelId
        info.counterpartyConnectionId proof.version)
      ++ ofText 4 proof.version ++ ofBytes 5 proof.proof ++ ofMessage 6 proof.height.toMessage
      ++ ofText 7 signer

def channelOpenAck (p : Provider) (info : ChannelInfo) (proof : ChannelProof) : Attempt Any :=
  p.signedBy .msgChannelOpenAck fun signer =>
    ofText 1 info.counterpartyPortId ++ ofText 2 info.counterpartyChannelId
      ++ ofText 3 info.channelId ++ ofText 4 proof.version ++ ofBytes 5 proof.proof
      ++ ofMessage 6 proof.height.toMessage ++ ofText 7 signer

def channelOpenConfirm (p : Provider) (info : ChannelInfo) (proof : ChannelProof) : Attempt Any :=
  p.signedBy .msgChannelOpenConfirm fun signer =>
    ofText 1 info.counterpartyPortId ++ ofText 2 info.counterpartyChannelId
      ++ ofBytes 3 proof.proof ++ ofMessage 4 proof.height.toMessage ++ ofText 5 signer

def channelCloseInit (p : Provider) (info : ChannelInfo) : Attempt Any :=
  p.signedBy .msgChannelCloseInit fun signer =>
    ofText 1 info.portId ++ ofText 2 info.channelId ++ ofText 3 signer

def channelCloseConfirm (p : Provider) (info : ChannelInfo) (proof : ChannelProof) : Attempt Any :=
  p.signedBy .msgChannelCloseConfirm fun signer =>
    ofText 1 info.counterpartyPortId ++ ofText 2 info.counterpartyChannelId
      ++ ofBytes 3 proof.proof ++ ofMessage 4 proof.height.toMessage ++ ofText 5 signer

/-- Answers an interchain query that a chain registered. -/
def queryResponse (p : Provider) (chainId queryId : String) (proof : QueryProof) : Attempt Any :=
  p.signedBy .msgSubmitQueryResponse fun sender =>
    ofText 1 chainId ++ ofText 2 queryId ++ ofBytes 3 proof.result ++ ofMessage? 4 proof.proofOps
      ++ ofNumber 5 (Schema.word proof.height) ++ ofText 6 sender

end PacketRelay.Provider
