import PacketRelay.Error.Basic

/-!
# The sequence cache of a signing key

The next sequence that a key may sign with and its account number, as last learned.  The cache
advances with each accepted transaction and is reset from the chain's word when the chain rejects a
sequence.
-/

namespace PacketRelay

structure SequenceState where
  /-- Zero until the sequence is first learned. -/
  next : UInt64
  accountNumber : UInt64
  deriving DecidableEq, Repr, Inhabited

/-- The first number of a text with exactly two numbers. -/
def expectedSequence? (text : String) : Option UInt64 :=
  match Decimal.runs text.toList with
  | [first, _] => (Decimal.readUInt64 first).toOption
  | _ => none

namespace SequenceState

def initial : SequenceState := ⟨0, 0⟩

/-- Moves the cache forward, never back. -/
def advance (s : SequenceState) (sequence : UInt64) : SequenceState :=
  { s with next := max s.next sequence }

/-- The sequence that a mismatch error names as the expected one. -/
def expectedBy (e : RelayError) : Option UInt64 := expectedSequence? e.chainLog

/-- Takes over the sequence that an error names, if it names one. -/
def resync (s : SequenceState) (e : RelayError) : SequenceState :=
  match expectedBy e with
  | some expected => { s with next := expected }
  | none => s

/-- The state after a submission that failed: a rejected sequence is replaced. -/
def afterFailure (s : SequenceState) (e : RelayError) : SequenceState :=
  if e.isSequenceMismatch then s.resync e else s

@[simp] theorem next_advance (s : SequenceState) (sequence : UInt64) :
    (s.advance sequence).next = max s.next sequence := rfl

@[simp] theorem accountNumber_advance (s : SequenceState) (sequence : UInt64) :
    (s.advance sequence).accountNumber = s.accountNumber := rfl

@[simp] theorem accountNumber_resync (s : SequenceState) (e : RelayError) :
    (s.resync e).accountNumber = s.accountNumber := by
  unfold resync
  split <;> rfl

end SequenceState

end PacketRelay
