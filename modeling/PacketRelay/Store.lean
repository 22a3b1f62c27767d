import PacketRelay.Height

/-!
# Entries of the chain's store

The entries of the IBC store that the relayer proves, the path of each, and the forms of query paths
for which a proof is asked or insisted on.
-/

namespace PacketRelay

inductive StoreKey where
  | commitment (port channel : String) (sequence : UInt64)
  | acknowledgement (port channel : String) (sequence : UInt64)
  | receipt (port channel : String) (sequence : UInt64)
  | nextSequenceRecv (port channel : String)
  | clientState (client : String)
  | consensusState (client : String) (height : Height)
  | connection (id : String)
  | channelEnd (port channel : String)
  deriving DecidableEq, Repr

namespace StoreKey

def segments : StoreKey → List String
  | .commitment port channel sequence =>
    ["commitments", "ports", port, "channels", channel, "sequences", Decimal.text sequence.toNat]
  | .acknowledgement port channel sequence =>
    ["acks", "ports", port, "channels", channel, "sequences", Decimal.text sequence.toNat]
  | .receipt port channel sequence =>
    ["receipts", "ports", port, "channels", channel, "sequences", Decimal.text sequence.toNat]
  | .nextSequenceRecv port channel => ["nextSequenceRecv", "ports", port, "channels", channel]
  | .clientState client => ["clients", client, "clientState"]
  | .consensusState client height => ["clients", client, "consensusStates", height.text]
  | .connection id => ["connections", id]
  | .channelEnd port channel => ["channelEnds", "ports", port, "channels", channel]

def path (k : StoreKey) : String := String.intercalate "/" k.segments

/-- The key under which the store holds the entry. -/
def bytes (k : StoreKey) : Bytes := Bytes.ofText k.path

end StoreKey

namespace StorePath

/-- The path of queries for an entry of the IBC store. -/
def ibcStore : String := "store/ibc/key"

/-- Whether the answer to a query must carry a proof: the path is `/store/<name>/key`. -/
def insistsOnProof (path : String) : Bool :=
  match Text.split '/' path.toList with
  | [first, second, _, last] =>
    first == [] && second == "store".toList && last == "key".toList
  | _ => false

/-- Whether an interchain query asks for a proof: the last segment of the path is `key`. -/
def asksForProof (path : String) : Bool :=
  (Text.split '/' path.toList).getLast? == some "key".toList

end StorePath

end PacketRelay
