import PacketRelay.Decimal.Shortest
import PacketRelay.Duration
import PacketRelay.Error.Registered
import PacketRelay.Packet.Validity

/-!
# Errors

The causes for which a step of the relayer fails, the wording of each, and what follows from a
cause: whether a fresh attempt may succeed, and whether the chain rejected the account sequence.
-/

namespace PacketRelay

/-- The kind of a failed query, by the code that the node answered. -/
inductive QueryStatus where
  | invalidArgument
  | unauthenticated
  | notFound
  | unknown
  deriving DecidableEq, Repr

namespace QueryStatus

def ofCode (code : UInt32) : QueryStatus :=
  if code = 18 then .invalidArgument
  else if code = 4 then .unauthenticated
  else if code = 22 then .notFound
  else .unknown

def text : QueryStatus → String
  | .invalidArgument => "InvalidArgument"
  | .unauthenticated => "Unauthenticated"
  | .notFound => "NotFound"
  | .unknown => "Unknown"

end QueryStatus

inductive RelayError where
  /-- The node could not be reached or did not answer. -/
  | rpc (cause : String)
  /-- The node answered a query with a code other than zero. -/
  | abciQuery (codespace : String) (code : UInt32) (log : String)
  /-- The chain answered a transaction with a registered error. -/
  | rejected (error : RegisteredError) (log : String)
  /-- The chain answered a transaction with a code that is not registered. -/
  | executionFailed (codespace : String) (code : UInt32) (log : String)
  | infiniteGas (gasUsed : UInt64) (adjustment : Float)
  | indexingDisabled
  | confirmationTimeout (txHash : String) (timeout : Duration)
  | cancelled
  | keyResolution (cause : String)
  | accountNotFound (address : String)
  | prunedHeader (height : UInt64) (source : RelayError)
  | packet (error : PacketError)
  | invalidResponse (cause : String)
  | invalidHeight (cause : String)
  | config (cause : String)
  | encode (cause : String)
  | decode (cause : String)
  | signing (cause : String)
  | retriesExhausted (attempts : Nat) (errors : List String)
  deriving Repr

namespace RelayError

def message : RelayError → String
  | .rpc cause => "rpc error: " ++ cause
  | .abciQuery codespace code log =>
    "abci query failed (" ++ (QueryStatus.ofCode code).text ++ ", codespace " ++ codespace
      ++ ", code " ++ Decimal.text code.toNat ++ "): " ++ log
  | .rejected error log => error.description ++ ": " ++ log
  | .executionFailed codespace code log =>
    "transaction failed to execute (codespace " ++ codespace ++ ", code " ++ Decimal.text code.toNat
      ++ "): " ++ log
  | .infiniteGas gasUsed adjustment =>
    "infinite gas used (gas used " ++ Decimal.text gasUsed.toNat ++ ", adjustment "
      ++ Decimal.floatText adjustment ++ ")"
  | .indexingDisabled =>
    "cannot determine success/failure of tx because transaction indexing is disabled on rpc url"
  | .confirmationTimeout txHash timeout =>
    "timed out after " ++ timeout.text ++ " waiting for tx " ++ txHash
      ++ " to be included in a block"
  | .cancelled => "operation cancelled"
  | .keyResolution cause => "failed to resolve signing key: " ++ cause
  | .accountNotFound address => "account " ++ address ++ " does not exist on chain"
  | .prunedHeader height source =>
    "failed to get trusted header, please ensure header at the height "
      ++ Decimal.text height.toNat ++ " has not been pruned by the connected node: "
      ++ source.message
  | .packet error => error.message
  | .invalidResponse cause => "invalid query response: " ++ cause
  | .invalidHeight cause => "invalid height: " ++ cause
  | .config cause => "configuration error: " ++ cause
  | .encode cause => "encoding error: " ++ cause
  | .decode cause => "decoding error: " ++ cause
  | .signing cause => "signing error: " ++ cause
  | .retriesExhausted attempts errors =>
    "all " ++ Decimal.text attempts ++ " attempts failed: " ++ String.intercalate "; " errors

/-- Whether a retry loop may attempt the failed step again.  Cancellation, protocol violations and
definitive answers of the chain are final. -/
def isRetryable : RelayError → Bool
  | .cancelled => false
  | .infiniteGas .. => false
  | .indexingDisabled => false
  | .packet _ => false
  | .config _ => false
  | .executionFailed .. => false
  | .rejected error _ => error.isRetryable
  | _ => true

/-- The codespace and code with which the chain answered. -/
def chainCode? : RelayError → Option (String × UInt32)
  | .rejected error _ => some (error.codespace, error.code)
  | .executionFailed codespace code _ => some (codespace, code)
  | .abciQuery codespace code _ => some (codespace, code)
  | _ => none

/-- Whether the chain rejected a transaction for its account sequence, by code or by wording. -/
def isSequenceMismatch (e : RelayError) : Bool :=
  e.chainCode? = some (RegisteredError.wrongSequence.codespace, RegisteredError.wrongSequence.code)
    || Text.contains RegisteredError.wrongSequence.description.toList e.message.toList

/-- The log of the chain's answer, the message where there is none. -/
def chainLog : RelayError → String
  | .rejected _ log => log
  | .executionFailed _ _ log => log
  | .abciQuery _ _ log => log
  | e => e.message

/-- The error for a transaction that was answered with a code other than zero. -/
def ofTxCode (codespace : String) (code : UInt32) (log : String) : RelayError :=
  match RegisteredError.resolve? codespace code with
  | some error => .rejected error log
  | none =>
    .executionFailed codespace code (if log = "" then "transaction failed to execute" else log)

/-- The error for bytes that do not decode to a message.  Its text is one for all of them; where a
decoder says what is wrong with the bytes, the text stands for whatever it says. -/
def malformedMessage : RelayError := .decode "failed to decode Protobuf message"

end RelayError

end PacketRelay
