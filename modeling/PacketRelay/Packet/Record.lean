import PacketRelay.Packet.Basic
import PacketRelay.Tx.Result

/-!
# Packets recorded by events

A packet is read back from the attributes of the event that recorded it.  An attribute that is
present but malformed makes the whole event unreadable; absent ones read as empty or zero, the
sequence excepted.
-/

namespace PacketRelay

/-- Reads an attribute with `read` if it is present. -/
def Event.readAttribute {α : Type} (e : Event) (key : String) (absent : α)
    (read : String → Option α) : Option α :=
  match e.attribute? key with
  | some text => read text
  | none => some absent

namespace Packet

def readNumber (text : String) : Option UInt64 := (Decimal.readUInt64 text.toList).toOption

/-- Bytes given in hexadecimal under `hexKey`, or else as text under `textKey`. -/
def readContent (e : Event) (hexKey textKey : String) : Option Bytes :=
  e.readAttribute hexKey (Bytes.ofText (e.attributeText textKey)) fun text =>
    (Hex.decode text).toOption

/-- The packet that an event of a transaction at `height` records. -/
def ofEvent? (height : UInt64) (e : Event) : Option Packet := do
  let sequence ← e.attribute? "packet_sequence" >>= readNumber
  let data ← readContent e "packet_data_hex" "packet_data"
  let ack ← readContent e "packet_ack_hex" "packet_ack"
  let timeoutHeight ← e.readAttribute "packet_timeout_height" Height.zero fun text =>
    (Height.parse text).toOption
  let timeoutTimestamp ← e.readAttribute "packet_timeout_timestamp" 0 readNumber
  return {
    height, sequence, data, ack, timeoutHeight, timeoutTimestamp
    sourcePort := e.attributeText "packet_src_port"
    sourceChannel := e.attributeText "packet_src_channel"
    destPort := e.attributeText "packet_dst_port"
    destChannel := e.attributeText "packet_dst_channel" }

/-- The packets that events of one kind record, in the order of transactions and events. -/
def recorded (kind : String) (txs : List TxResult) : List Packet :=
  txs.flatMap fun tx => (tx.events.filter (·.kind = kind)).filterMap (ofEvent? tx.height)

/-- The first packet sent with a sequence on a port and channel. -/
def findSent (txs : List TxResult) (channel port : String) (sequence : UInt64) : Option Packet :=
  (recorded "send_packet" txs).find? fun p =>
    p.sequence = sequence && p.sourceChannel = channel && p.sourcePort = port

/-- The first packet received with a sequence on a port and channel, with its acknowledgement. -/
def findReceived (txs : List TxResult) (channel port : String) (sequence : UInt64) :
    Option Packet :=
  (recorded "write_acknowledgement" txs).find? fun p =>
    p.sequence = sequence && p.destChannel = channel && p.destPort = port

end Packet

end PacketRelay
