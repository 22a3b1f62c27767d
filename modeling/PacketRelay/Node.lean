import PacketRelay.Client.Header
import PacketRelay.Tx.Result

/-!
# Chain nodes

The calls that the relayer makes to a chain's node, and the answers to each.
-/

namespace PacketRelay

open Schema (Message)

inductive NodeCall where
  /-- A query at a height, zero for the latest, with or without a proof. -/
  | abciQuery (path : String) (data : Bytes) (height : UInt64) (prove : Bool)
  | latestBlock
  | blockTime (height : UInt64)
  | lightBlock (height : UInt64)
  /-- Submission to the mempool. -/
  | broadcast (tx : Bytes)
  | tx (hash : String)
  | txSearch (query : String)
  deriving DecidableEq, Repr

structure QueryAnswer where
  code : UInt32
  codespace : String
  log : String
  key : Bytes
  value : Bytes
  proofOps : Option Message
  height : UInt64
  deriving Repr, Inhabited

/-- What the mempool says of a submitted transaction. -/
structure BroadcastAnswer where
  code : UInt32
  codespace : String
  log : String
  data : Bytes
  hash : String
  deriving Repr, Inhabited

/-- A failed submission; the node may have answered all the same. -/
structure BroadcastFailure where
  error : RelayError
  response : Option BroadcastAnswer
  deriving Repr

/-- The answers to a call; a transaction that is not indexed yet is no error. -/
abbrev NodeCall.Answer : NodeCall → Type
  | .abciQuery .. => Except RelayError QueryAnswer
  | .latestBlock => Except RelayError LatestBlock
  | .blockTime _ => Except RelayError BlockTime
  | .lightBlock _ => Except RelayError LightBlock
  | .broadcast _ => Except BroadcastFailure BroadcastAnswer
  | .tx _ => Except RelayError (Option TxResult)
  | .txSearch _ => Except RelayError (List TxResult)

end PacketRelay
