/-!
# Message types

The protobuf messages that the relayer reads, writes or carries, with their full names.
-/

namespace PacketRelay.Schema

inductive MessageType where
  | height
  | msgCreateClient
  | msgUpdateClient
  | msgUpgradeClient
  | msgSubmitMisbehaviour
  | merkleProof
  | msgRecvPacket
  | msgTimeout
  | msgTimeoutOnClose
  | msgAcknowledgement
  | msgChannelOpenInit
  | msgChannelOpenTry
  | msgChannelOpenAck
  | msgChannelOpenConfirm
  | msgChannelCloseInit
  | msgChannelCloseConfirm
  | connectionEnd
  | msgConnectionOpenInit
  | msgConnectionOpenTry
  | msgConnectionOpenAck
  | msgConnectionOpenConfirm
  | msgTransfer
  | clientState
  | consensusState
  | header
  | msgSubmitQueryResponse
  | queryAccountRequest
  | queryAccountResponse
  | baseAccount
  | txBody
  | authInfo
  | signDoc
  | txRaw
  | simulateRequest
  | simulateResponse
  | secp256k1Key
  | any
  | commitmentProof
  | packet
  | channel
  | connectionVersion
  | connectionCounterparty
  | coin
  | fraction
  | duration
  | proofSpec
  | timestamp
  | merkleRoot
  | signedHeader
  | validatorSet
  | proofOps
  | signerInfo
  | fee
  | tip
  | tx
  | gasInfo
  | simulationResult
  | existenceProof
  | nonExistenceProof
  | batchProof
  | compressedBatchProof
  | channelCounterparty
  | merklePrefix
  | leafOp
  | innerSpec
  | blockHeader
  | commit
  | validator
  | proofOp
  | modeInfo
  | event
  | innerOp
  | batchEntry
  | compressedBatchEntry
  | blockVersion
  | blockId
  | commitSig
  | publicKey
  | singleMode
  | multiMode
  | eventAttribute
  | compressedExistenceProof
  | compressedNonExistenceProof
  | partSetHeader
  | compactBitArray
  deriving DecidableEq, Repr

namespace MessageType

def all : List MessageType := [
  .height, .msgCreateClient, .msgUpdateClient, .msgUpgradeClient, .msgSubmitMisbehaviour,
  .merkleProof, .msgRecvPacket, .msgTimeout, .msgTimeoutOnClose, .msgAcknowledgement,
  .msgChannelOpenInit, .msgChannelOpenTry, .msgChannelOpenAck, .msgChannelOpenConfirm,
  .msgChannelCloseInit, .msgChannelCloseConfirm, .connectionEnd, .msgConnectionOpenInit,
  .msgConnectionOpenTry, .msgConnectionOpenAck, .msgConnectionOpenConfirm, .msgTransfer,
  .clientState, .consensusState, .header, .msgSubmitQueryResponse, .queryAccountRequest,
  .queryAccountResponse, .baseAccount, .txBody, .authInfo, .signDoc, .txRaw, .simulateRequest,
  .simulateResponse, .secp256k1Key, .any, .commitmentProof, .packet, .channel, .connectionVersion,
  .connectionCounterparty, .coin, .fraction, .duration, .proofSpec, .timestamp, .merkleRoot,
  .signedHeader, .validatorSet, .proofOps, .signerInfo, .fee, .tip, .tx, .gasInfo,
  .simulationResult, .existenceProof, .nonExistenceProof, .batchProof, .compressedBatchProof,
  .channelCounterparty, .merklePrefix, .leafOp, .innerSpec, .blockHeader, .commit, .validator,
  .proofOp, .modeInfo, .event, .innerOp, .batchEntry, .compressedBatchEntry, .blockVersion,
  .blockId, .commitSig, .publicKey, .singleMode, .multiMode, .eventAttribute,
  .compressedExistenceProof, .compressedNonExistenceProof, .partSetHeader, .compactBitArray]

/-- The full name of a message type. -/
def name : MessageType → String
  | .height => "ibc.core.client.v1.Height"
  | .msgCreateClient => "ibc.core.client.v1.MsgCreateClient"
  | .msgUpdateClient => "ibc.core.client.v1.MsgUpdateClient"
  | .msgUpgradeClient => "ibc.core.client.v1.MsgUpgradeClient"
  | .msgSubmitMisbehaviour => "ibc.core.client.v1.MsgSubmitMisbehaviour"
  | .merkleProof => "ibc.core.commitment.v1.MerkleProof"
  | .msgRecvPacket => "ibc.core.channel.v1.MsgRecvPacket"
  | .msgTimeout => "ibc.core.channel.v1.MsgTimeout"
  | .msgTimeoutOnClose => "ibc.core.channel.v1.MsgTimeoutOnClose"
  | .msgAcknowledgement => "ibc.core.channel.v1.MsgAcknowledgement"
  | .msgChannelOpenInit => "ibc.core.channel.v1.MsgChannelOpenInit"
  | .msgChannelOpenTry => "ibc.core.channel.v1.MsgChannelOpenTry"
  | .msgChannelOpenAck => "ibc.core.channel.v1.MsgChannelOpenAck"
  | .msgChannelOpenConfirm => "ibc.core.channel.v1.MsgChannelOpenConfirm"
  | .msgChannelCloseInit => "ibc.core.channel.v1.MsgChannelCloseInit"
  | .msgChannelCloseConfirm => "ibc.core.channel.v1.MsgChannelCloseConfirm"
  | .connectionEnd => "ibc.core.connection.v1.ConnectionEnd"
  | .msgConnectionOpenInit => "ibc.core.connection.v1.MsgConnectionOpenInit"
  | .msgConnectionOpenTry => "ibc.core.connection.v1.MsgConnectionOpenTry"
  | .msgConnectionOpenAck => "ibc.core.connection.v1.MsgConnectionOpenAck"
  | .msgConnectionOpenConfirm => "ibc.core.connection.v1.MsgConnectionOpenConfirm"
  | .msgTransfer => "ibc.applications.transfer.v1.MsgTransfer"
  | .clientState => "ibc.lightclients.tendermint.v1.ClientState"
  | .consensusState => "ibc.lightclients.tendermint.v1.ConsensusState"
  | .header => "ibc.lightclients.tendermint.v1.Header"
  | .msgSubmitQueryResponse => "stride.interchainquery.v1.MsgSubmitQueryResponse"
  | .queryAccountRequest => "cosmos.auth.v1beta1.QueryAccountRequest"
  | .queryAccountResponse => "cosmos.auth.v1beta1.QueryAccountResponse"
  | .baseAccount => "cosmos.auth.v1beta1.BaseAccount"
  | .txBody => "cosmos.tx.v1beta1.TxBody"
  | .authInfo => "cosmos.tx.v1beta1.AuthInfo"
  | .signDoc => "cosmos.tx.v1beta1.SignDoc"
  | .txRaw => "cosmos.tx.v1beta1.TxRaw"
  | .simulateRequest => "cosmos.tx.v1beta1.SimulateRequest"
  | .simulateResponse => "cosmos.tx.v1beta1.SimulateResponse"
  | .secp256k1Key => "cosmos.crypto.secp256k1.PubKey"
  | .any => "google.protobuf.Any"
  | .commitmentProof => "cosmos.ics23.v1.CommitmentProof"
  | .packet => "ibc.core.channel.v1.Packet"
  | .channel => "ibc.core.channel.v1.Channel"
  | .connectionVersion => "ibc.core.connection.v1.Version"
  | .connectionCounterparty => "ibc.core.connection.v1.Counterparty"
  | .coin => "cosmos.base.v1beta1.Coin"
  | .fraction => "ibc.lightclients.tendermint.v1.Fraction"
  | .duration => "google.protobuf.Duration"
  | .proofSpec => "cosmos.ics23.v1.ProofSpec"
  | .timestamp => "google.protobuf.Timestamp"
  | .merkleRoot => "ibc.core.commitment.v1.MerkleRoot"
  | .signedHeader => "tendermint.types.SignedHeader"
  | .validatorSet => "tendermint.types.ValidatorSet"
  | .proofOps => "tendermint.crypto.ProofOps"
  | .signerInfo => "cosmos.tx.v1beta1.SignerInfo"
  | .fee => "cosmos.tx.v1beta1.Fee"
  | .tip => "cosmos.tx.v1beta1.Tip"
  | .tx => "cosmos.tx.v1beta1.Tx"
  | .gasInfo => "cosmos.base.abci.v1beta1.GasInfo"
  | .simulationResult => "cosmos.base.abci.v1beta1.Result"
  | .existenceProof => "cosmos.ics23.v1.ExistenceProof"
  | .nonExistenceProof => "cosmos.ics23.v1.NonExistenceProof"
  | .batchProof => "cosmos.ics23.v1.BatchProof"
  | .compressedBatchProof => "cosmos.ics23.v1.CompressedBatchProof"
  | .channelCounterparty => "ibc.core.channel.v1.Counterparty"
  | .merklePrefix => "ibc.core.commitment.v1.MerklePrefix"
  | .leafOp => "cosmos.ics23.v1.LeafOp"
  | .innerSpec => "cosmos.ics23.v1.InnerSpec"
  | .blockHeader => "tendermint.types.Header"
  | .commit => "tendermint.types.Commit"
  | .validator => "tendermint.types.Validator"
  | .proofOp => "tendermint.crypto.ProofOp"
  | .modeInfo => "cosmos.tx.v1beta1.ModeInfo"
  | .event => "tendermint.abci.Event"
  | .innerOp => "cosmos.ics23.v1.InnerOp"
  | .batchEntry => "cosmos.ics23.v1.BatchEntry"
  | .compressedBatchEntry => "cosmos.ics23.v1.CompressedBatchEntry"
  | .blockVersion => "tendermint.version.Consensus"
  | .blockId => "tendermint.types.BlockId"
  | .commitSig => "tendermint.types.CommitSig"
  | .publicKey => "tendermint.crypto.PublicKey"
  | .singleMode => "cosmos.tx.v1beta1.mode_info.Single"
  | .multiMode => "cosmos.tx.v1beta1.mode_info.Multi"
  | .eventAttribute => "tendermint.abci.EventAttribute"
  | .compressedExistenceProof => "cosmos.ics23.v1.CompressedExistenceProof"
  | .compressedNonExistenceProof => "cosmos.ics23.v1.CompressedNonExistenceProof"
  | .partSetHeader => "tendermint.types.PartSetHeader"
  | .compactBitArray => "cosmos.crypto.multisig.v1beta1.CompactBitArray"

/-- The last part of the full name. -/
def shortName (t : MessageType) : String :=
  String.ofList (t.name.toList.reverse.takeWhile (· ≠ '.')).reverse

def ofShortName? (s : String) : Option MessageType := all.find? (·.shortName = s)

/-- The name under which a packed message of the type travels. -/
def typeUrl (t : MessageType) : String := "/" ++ t.name

end MessageType

end PacketRelay.Schema
