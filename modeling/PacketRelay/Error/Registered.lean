/-!
# Registered chain errors

The errors that every chain registers under the root codespace, by code.
-/

namespace PacketRelay

structure RegisteredError where
  codespace : String
  code : UInt32
  description : String
  deriving DecidableEq, Repr

namespace RegisteredError

/-- The codespace of the errors that every chain registers. -/
def rootCodespace : String := "sdk"

/-- The descriptions of the root errors, by code. -/
def rootDescriptions : List (UInt32 × String) := [
  (2, "tx parse error"),
  (3, "invalid sequence"),
  (4, "unauthorized"),
  (5, "insufficient funds"),
  (6, "unknown request"),
  (7, "invalid address"),
  (8, "invalid pubkey"),
  (9, "unknown address"),
  (10, "invalid coins"),
  (11, "out of gas"),
  (12, "memo too large"),
  (13, "insufficient fee"),
  (14, "maximum number of signatures exceeded"),
  (15, "no signatures supplied"),
  (16, "failed to marshal JSON bytes"),
  (17, "failed to unmarshal JSON bytes"),
  (18, "invalid request"),
  (19, "tx already in mempool"),
  (20, "mempool is full"),
  (21, "tx too large"),
  (22, "key not found"),
  (23, "invalid account password"),
  (24, "tx intended signer does not match the given signer"),
  (25, "invalid gas adjustment"),
  (26, "invalid height"),
  (27, "invalid version"),
  (28, "invalid chain-id"),
  (29, "invalid type"),
  (30, "tx timeout height"),
  (31, "unknown extension options"),
  (32, "incorrect account sequence"),
  (33, "failed packing protobuf message to Any"),
  (34, "failed unpacking protobuf message from Any"),
  (35, "internal logic error"),
  (36, "conflict"),
  (37, "feature not supported"),
  (38, "not found"),
  (39, "Internal IO error"),
  (40, "error in app.toml"),
  (41, "invalid gas limit")]

/-- The error for a transaction signed with the wrong account sequence. -/
def wrongSequence : RegisteredError := ⟨rootCodespace, 32, "incorrect account sequence"⟩

def resolve? (codespace : String) (code : UInt32) : Option RegisteredError :=
  if codespace = rootCodespace then
    (rootDescriptions.lookup code).map fun description => ⟨codespace, code, description⟩
  else none

/-- Whether a fresh attempt can get past the error: a full mempool or a stale sequence. -/
def isRetryable (e : RegisteredError) : Bool :=
  e.codespace = rootCodespace && (e.code = 20 || e.code = 32)

theorem resolve?_wrongSequence : resolve? "sdk" 32 = some wrongSequence := by decide

end RegisteredError

end PacketRelay
