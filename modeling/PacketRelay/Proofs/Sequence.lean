import PacketRelay.Proofs.Decimal.Runs
import PacketRelay.Proofs.Error.Mismatch

/-!
# The sequence that a text names

A text names a number by the first of its runs of digits, if it has just two of them.  A mismatch
error puts a sequence that its log names into the cache, if it fits, and otherwise leaves the whole
state as it is.
-/

namespace PacketRelay

/-- The text has just two maximal runs of digits, the first of which has this value. -/
def NamesNumber (text : String) (n : Nat) : Prop :=
  ∃ first second, Decimal.HasTwoRuns text.toList first second ∧ Decimal.valueOf first = n

theorem namesNumber_iff {text : String} {n : Nat} : NamesNumber text n ↔
    ∃ first second, Decimal.runs text.toList = [first, second] ∧ Decimal.valueOf first = n := by
  simp only [NamesNumber, Decimal.hasTwoRuns_iff]

theorem expectedSequence?_iff_namesNumber {text : String} {n : UInt64} :
    expectedSequence? text = some n ↔ NamesNumber text n.toNat := by
  rw [expectedSequence?_eq_some_iff, namesNumber_iff]

theorem resync_of_namesNumber {e : RelayError} {n : UInt64} (he : NamesNumber e.chainLog n.toNat)
    (s : SequenceState) : s.resync e = { s with next := n } := by
  have hexpected : SequenceState.expectedBy e = some n := expectedSequence?_iff_namesNumber.mpr he
  rw [SequenceState.resync, hexpected]

theorem resync_of_not_namesNumber {e : RelayError}
    (he : ∀ n : UInt64, ¬ NamesNumber e.chainLog n.toNat) (s : SequenceState) :
    SequenceState.expectedBy e = none ∧ s.resync e = s := by
  have hexpected : SequenceState.expectedBy e = none :=
    Option.eq_none_iff_forall_ne_some.mpr fun n hn =>
      he n (expectedSequence?_iff_namesNumber.mp hn)
  rw [SequenceState.resync, hexpected]
  exact ⟨rfl, rfl⟩

/-- The sequence read from a text is the number of 64 bits that it names, whatever its leading zeros
and however large the other number is.  An error whose log is read so replaces the cached sequence,
and one whose log is not read changes nothing. -/
theorem expectedSequence?_exact :
    (∀ (text : String) (n : UInt64),
      expectedSequence? text = some n ↔ NamesNumber text n.toNat) ∧
    (∀ a b c : String, Decimal.DigitFree a.toList → Decimal.DigitFree b.toList → b ≠ "" →
      Decimal.DigitFree c.toList → ∀ n m : Nat,
        expectedSequence? (a ++ Decimal.text n ++ b ++ Decimal.text m ++ c) =
          if n < 1 <<< 64 then some (UInt64.ofNat n) else none) ∧
    ∀ (s : SequenceState) (e : RelayError),
      (∀ n : UInt64, NamesNumber e.chainLog n.toNat →
        SequenceState.expectedBy e = some n ∧ s.resync e = { s with next := n }) ∧
      ((∀ n : UInt64, ¬ NamesNumber e.chainLog n.toNat) →
        SequenceState.expectedBy e = none ∧ s.resync e = s) := by
  refine ⟨fun text n => expectedSequence?_iff_namesNumber, ?_, ?_⟩
  · intro a b c ha hb hne hc n m
    exact expectedSequence?_numerals ha hb hne hc n m
  · intro s e
    constructor
    · intro n he
      exact ⟨expectedSequence?_iff_namesNumber.mpr he, resync_of_namesNumber he s⟩
    · intro he
      exact resync_of_not_namesNumber he s

/-- A log with leading zeros and a number that is too large for a sequence, which moves the cache
back, and one with a third number. -/
theorem expectedSequence?_exact_padded :
    (SequenceState.mk 50 3).resync
        (.rejected .wrongSequence "expected 007, got 99999999999999999999") = ⟨7, 3⟩ ∧
    (SequenceState.mk 50 3).resync (.rpc "code 32: expected 42, got 41") = ⟨50, 3⟩ := by
  have hpadded : NamesNumber (RelayError.rejected .wrongSequence
      "expected 007, got 99999999999999999999").chainLog (7 : UInt64).toNat :=
    namesNumber_iff.mpr ⟨"007".toList, "99999999999999999999".toList, by decide +kernel,
      by decide +kernel⟩
  have hthree : Decimal.runs (RelayError.rpc "code 32: expected 42, got 41").chainLog.toList =
      ["32".toList, "42".toList, "41".toList] := by decide +kernel
  constructor
  · exact ((expectedSequence?_exact.2.2 _ _).1 7 hpadded).2
  · refine ((expectedSequence?_exact.2.2 _ _).2 fun n hn => ?_).2
    obtain ⟨first, second, htwo, _⟩ := namesNumber_iff.mp hn
    rw [hthree] at htwo
    cases htwo

end PacketRelay
