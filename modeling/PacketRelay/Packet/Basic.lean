import PacketRelay.Height

/-!
# Packets

A packet as its send and receive events record it.
-/

namespace PacketRelay

open Schema (Message)

structure Packet where
  /-- Height of the transaction that emitted the event. -/
  height : UInt64
  sequence : UInt64
  sourcePort : String
  sourceChannel : String
  destPort : String
  destChannel : String
  data : Bytes
  timeoutHeight : Height
  /-- Nanoseconds since the epoch, zero for none. -/
  timeoutTimestamp : UInt64
  /-- The acknowledgement, empty where none was written. -/
  ack : Bytes
  deriving DecidableEq, Repr, Inhabited

def Packet.toMessage (p : Packet) : Message :=
  Message.ofNumber 1 p.sequence ++ Message.ofText 2 p.sourcePort
    ++ Message.ofText 3 p.sourceChannel ++ Message.ofText 4 p.destPort
    ++ Message.ofText 5 p.destChannel ++ Message.ofBytes 6 p.data
    ++ Message.ofMessage 7 p.timeoutHeight.toMessage ++ Message.ofNumber 8 p.timeoutTimestamp

end PacketRelay
