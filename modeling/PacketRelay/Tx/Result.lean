import PacketRelay.Hash.Sha256
import PacketRelay.Hex

/-!
# Transactions as the chain reports them

Events and results of indexed transactions, and the form in which a confirmed transaction is handed
to callers.
-/

namespace PacketRelay

structure Event where
  kind : String
  attributes : List (String × String)
  deriving DecidableEq, Repr, Inhabited

namespace Event

def attribute? (e : Event) (key : String) : Option String := e.attributes.lookup key

/-- The attribute, empty when there is none. -/
def attributeText (e : Event) (key : String) : String := (e.attribute? key).getD ""

/-- One value for each key, the last one given. -/
def flatten (e : Event) : Event :=
  { e with
    attributes := e.attributes.foldl (fun kept (k, v) => kept.filter (·.1 ≠ k) ++ [(k, v)]) [] }

end Event

/-- A transaction as the node's index holds it. -/
structure TxResult where
  hash : String
  height : UInt64
  code : UInt32
  codespace : String
  log : String
  data : Bytes
  gasWanted : UInt64
  gasUsed : UInt64
  events : List Event
  deriving DecidableEq, Repr, Inhabited

/-- The outcome of a broadcast transaction. -/
structure TxResponse where
  height : UInt64
  txHash : String
  codespace : String
  code : UInt32
  /-- Upper-case hexadecimal. -/
  data : String
  events : List Event
  deriving DecidableEq, Repr, Inhabited

def TxResponse.ofResult (r : TxResult) : TxResponse where
  height := r.height
  txHash := r.hash
  codespace := r.codespace
  code := r.code
  data := Hex.encodeUpper r.data
  events := r.events.map Event.flatten

/-- The hash under which a transaction is indexed. -/
def txHash (tx : Bytes) : String := Hex.encodeUpper (Hash.sha256 tx)

end PacketRelay
