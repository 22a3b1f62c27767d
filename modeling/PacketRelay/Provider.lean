import PacketRelay.Gas
import PacketRelay.Retry.Policy
import PacketRelay.Sequence
import PacketRelay.ChainId
import PacketRelay.Tx.Result

/-!
# Chain providers

A provider acts for one signing key on one chain.  Providers with the same chain and key share one
lock and one sequence cache.
-/

namespace PacketRelay

inductive SignMode where
  | direct
  | aminoJson
  deriving DecidableEq, Repr

namespace SignMode

/-- The number of a sign mode in messages. -/
def code : SignMode → UInt64
  | .direct => 1
  | .aminoJson => 127

/-- The name of a sign mode in configuration files. -/
def name : SignMode → String
  | .direct => "direct"
  | .aminoJson => "amino-json"

def ofName? (s : String) : Option SignMode :=
  if s = "direct" then some .direct else if s = "amino-json" then some .aminoJson else none

/-- The name of a sign mode in error texts. -/
def label : SignMode → String
  | .direct => "Direct"
  | .aminoJson => "AminoJson"

end SignMode

structure ProviderConfig where
  chainId : String
  keyName : String
  accountPrefix : String
  gasAdjustment : Float
  gasPrice : GasPrice
  /-- The least gas of a transaction, zero for none. -/
  minGas : UInt64
  /-- The most gas of a transaction, zero for none. -/
  maxGas : UInt64
  signMode : SignMode
  /-- How long to wait for a transaction to be included in a block. -/
  broadcastTimeout : Duration
  /-- The pause between two look-ups of a transaction. -/
  pollInterval : Duration
  retry : RetryPolicy
  deriving Repr

structure Provider where
  /-- Tells the providers of a relayer apart. -/
  id : Nat
  config : ProviderConfig
  publicKey : Bytes
  deriving Repr

/-- A signing key on a chain, to which a lock and a sequence cache belong. -/
structure KeyId where
  chainId : String
  keyName : String
  deriving DecidableEq, Repr

namespace Provider

def chainId (p : Provider) : String := p.config.chainId

def key (p : Provider) : KeyId := ⟨p.config.chainId, p.config.keyName⟩

def revision (p : Provider) : UInt64 := ChainId.revision p.chainId

/-- The gas of a transaction that used `gasUsed` when simulated. -/
def adjustGas (p : Provider) (gasUsed : UInt64) : Except RelayError UInt64 :=
  PacketRelay.adjustGas gasUsed p.config.gasAdjustment p.config.maxGas

end Provider

/-- The final outcome of waiting for a transaction that the mempool accepted. -/
inductive Confirmation where
  | confirmed (response : TxResponse)
  /-- Included with another code, in which case there is a response, or lost sight of. -/
  | failed (response : Option TxResponse) (error : RelayError)
  | timedOut (txHash : String) (timeout : Duration)
  deriving Repr

namespace Confirmation

def toResult : Confirmation → Except RelayError TxResponse
  | .confirmed response => .ok response
  | .failed _ error => .error error
  | .timedOut txHash timeout => .error (.confirmationTimeout txHash timeout)

def outcome : Confirmation → String
  | .confirmed _ => "confirmed"
  | .failed .. => "failed"
  | .timedOut .. => "timed_out"

end Confirmation

end PacketRelay
