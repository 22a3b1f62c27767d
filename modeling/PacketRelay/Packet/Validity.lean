import PacketRelay.Channel
import PacketRelay.ChainId
import PacketRelay.Packet.Basic

/-!
# Whether a packet may be delivered

A packet that breaks the protocol is refused.  Otherwise it may have expired on its destination: by
height, by time, or because the channel is closed, looked at in this order.
-/

namespace PacketRelay

/-- A moment, as whole seconds since the epoch and nanoseconds after them. -/
structure BlockTime where
  seconds : Int
  nanos : Nat
  deriving DecidableEq, Repr, Inhabited

namespace BlockTime

/-- Nanoseconds since the epoch. -/
def unixNanos (t : BlockTime) : Int := t.seconds * 1000000000 + t.nanos

/-- Nanoseconds since the epoch as 64 bits: zero before the epoch, and the greatest number when the
signed count exceeds 64 bits. -/
def timestamp (t : BlockTime) : UInt64 :=
  if -0x8000000000000000 ≤ t.unixNanos ∧ t.unixNanos < 0x8000000000000000 then
    UInt64.ofNat t.unixNanos.toNat
  else UInt64.ofNat (1 <<< 64 - 1)

end BlockTime

/-- A block of the destination, by which packets are judged. -/
structure LatestBlock where
  height : UInt64
  time : BlockTime
  deriving DecidableEq, Repr, Inhabited

/-- The rule by which a packet expired. -/
inductive Expiry where
  | height
  | timestamp
  | channelClosed
  deriving DecidableEq, Repr

def Expiry.label : Expiry → String
  | .height => "Height"
  | .timestamp => "Timestamp"
  | .channelClosed => "ChannelClosed"

inductive PacketError where
  | zeroSequence
  | emptyData
  | missingTimeout
  | timeoutHeight (latest timeout : UInt64)
  | timeoutTimestamp (latest timeout : UInt64)
  | timeoutOnClose (sequence : UInt64)
  deriving DecidableEq, Repr

namespace PacketError

def message : PacketError → String
  | .zeroSequence => "refusing to relay packet with sequence: 0"
  | .emptyData => "refusing to relay packet with empty data"
  | .missingTimeout =>
    "refusing to relay packet without a timeout (height or timestamp must be set)"
  | .timeoutHeight latest timeout =>
    "latest height " ++ Decimal.text latest.toNat ++ " is greater than expiration height: "
      ++ Decimal.text timeout.toNat
  | .timeoutTimestamp latest timeout =>
    "latest block timestamp " ++ Decimal.text latest.toNat
      ++ " is greater than expiration timestamp: " ++ Decimal.text timeout.toNat
  | .timeoutOnClose sequence =>
    "packet timed out on channel close: sequence " ++ Decimal.text sequence.toNat

/-- The rule by which the packet expired, none if it breaks the protocol. -/
def expiry? : PacketError → Option Expiry
  | .timeoutHeight .. => some .height
  | .timeoutTimestamp .. => some .timestamp
  | .timeoutOnClose _ => some .channelClosed
  | _ => none

end PacketError

namespace Packet

/-- Judges a packet by a block of its destination. -/
def validate (p : Packet) (latest : LatestBlock) (destChain : String) (channel : ChannelState) :
    Except PacketError Unit :=
  let judged : Height := ⟨ChainId.revision destChain, latest.height⟩
  let time := latest.time.timestamp
  if p.sequence = 0 then .error .zeroSequence
  else if p.data = [] then .error .emptyData
  else if p.timeoutHeight.isZero ∧ p.timeoutTimestamp = 0 then .error .missingTimeout
  else if ¬ p.timeoutHeight.isZero ∧ p.timeoutHeight ≤ judged then
    .error (.timeoutHeight latest.height p.timeoutHeight.revisionHeight)
  else if 0 < p.timeoutTimestamp ∧ p.timeoutTimestamp < time then
    .error (.timeoutTimestamp time p.timeoutTimestamp)
  else if channel = .closed then .error (.timeoutOnClose p.sequence)
  else .ok ()

end Packet

end PacketRelay
