import PacketRelay.Proofs.Decimal.Canonical
import PacketRelay.Proofs.Text
import PacketRelay.Retry.Loop
import PacketRelay.Sequence

/-!
# Sequence mismatches

The words in which a chain rejects a sequence name the expected one first, and the errors that come
of them are recognised and give that number back.  Those with the code for a wrong sequence may be
retried.  A mismatch that is known by its wording alone may also be a definitive answer.
-/

namespace PacketRelay

theorem suffix_toList_append (a b : String) : b.toList <:+ (a ++ b).toList := by
  rw [String.toList_append]
  exact List.suffix_append _ _

/-- What a chain says that expects one sequence and got another. -/
def mismatchLog (expected got : UInt64) : String :=
  "account sequence mismatch, expected " ++ Decimal.text expected.toNat ++ ", got "
    ++ Decimal.text got.toNat ++ ": incorrect account sequence"

/-- In a text with two numerals apart from each other and no other digits the first one is read. -/
theorem expectedSequence?_numerals {a b c : String} (ha : Decimal.DigitFree a.toList)
    (hb : Decimal.DigitFree b.toList) (hne : b ≠ "") (hc : Decimal.DigitFree c.toList) (n m : Nat) :
    expectedSequence? (a ++ Decimal.text n ++ b ++ Decimal.text m ++ c) =
      if n < 1 <<< 64 then some (UInt64.ofNat n) else none := by
  have htext : (a ++ Decimal.text n ++ b ++ Decimal.text m ++ c).toList =
      a.toList ++ (Decimal.digits n ++ (b.toList ++ (Decimal.digits m ++ c.toList))) := by
    simp only [Decimal.text, String.toList_append, String.toList_ofList, List.append_assoc]
  have hgap : b.toList ≠ [] := by simpa using hne
  have hruns := Decimal.runs_pair ha (Decimal.isRun_digits n) (Decimal.digits_ne_nil n) hb hgap
    (Decimal.isRun_digits m) (Decimal.digits_ne_nil m) hc
  rw [expectedSequence?, htext, hruns]
  exact Decimal.toOption_readUInt64_digits n

theorem expectedSequence?_mismatchLog (expected got : UInt64) :
    expectedSequence? (mismatchLog expected got) = some expected := by
  have hlt : expected.toNat < 1 <<< 64 := by simpa using expected.toNat_lt
  have hread := expectedSequence?_numerals (a := "account sequence mismatch, expected ")
    (b := ", got ") (c := ": incorrect account sequence") (by decide) (by decide) (by decide)
    (by decide) expected.toNat got.toNat
  rwa [if_pos hlt, UInt64.ofNat_toNat] at hread

theorem expectedSequence?_eq_some_iff {text : String} {n : UInt64} :
    expectedSequence? text = some n ↔ ∃ first second,
      Decimal.runs text.toList = [first, second] ∧ Decimal.valueOf first = n.toNat := by
  have hread {first second : List Char} (hruns : Decimal.runs text.toList = [first, second]) :
      (Decimal.readUInt64 first).toOption = some n ↔ Decimal.valueOf first = n.toNat := by
    have hmem : first ∈ Decimal.runs text.toList := by simp [hruns]
    obtain ⟨hrun, hne⟩ := Decimal.isRun_of_mem_runs hmem
    exact Decimal.readUInt64_run hrun hne n
  unfold expectedSequence?
  split
  · next first second hruns =>
    rw [hread hruns]
    constructor
    · intro hvalue
      exact ⟨first, second, hruns, hvalue⟩
    · rintro ⟨_, _, hsame, hvalue⟩
      rw [hruns] at hsame
      cases hsame
      exact hvalue
  · next hother =>
    constructor
    · intro hsome
      cases hsome
    · rintro ⟨first, second, hruns, _⟩
      exact (hother first second hruns).elim

namespace RelayError

/-- The error is a sequence mismatch whose log holds two runs of digits, the first of this value. -/
def Names (e : RelayError) (n : UInt64) : Prop :=
  e.isSequenceMismatch = true ∧ ∃ first second,
    Decimal.runs e.chainLog.toList = [first, second] ∧ Decimal.valueOf first = n.toNat

theorem names_iff {e : RelayError} {n : UInt64} :
    e.Names n ↔ e.isSequenceMismatch = true ∧ SequenceState.expectedBy e = some n := by
  rw [Names, SequenceState.expectedBy, expectedSequence?_eq_some_iff]

theorem afterFailure_of_names {e : RelayError} {n : UInt64} (he : e.Names n) (s : SequenceState) :
    s.afterFailure e = { s with next := n } := by
  obtain ⟨hmismatch, hexpected⟩ := names_iff.mp he
  simp [SequenceState.afterFailure, hmismatch, SequenceState.resync, hexpected]

theorem afterFailure_of_not_names {e : RelayError} (he : ∀ n, ¬ e.Names n) (s : SequenceState) :
    s.afterFailure e = s := by
  unfold SequenceState.afterFailure SequenceState.resync
  split
  · next hmismatch =>
    split
    · next n hexpected => exact absurd (names_iff.mpr ⟨hmismatch, hexpected⟩) (he n)
    · rfl
  · rfl

/-- The error is a mismatch that may be retried and names this sequence as the expected one. -/
structure Expects (e : RelayError) (expected : UInt64) : Prop where
  mismatch : e.isSequenceMismatch = true
  retryable : e.isRetryable = true
  names : SequenceState.expectedBy e = some expected

theorem expects_abciQuery (expected got : UInt64) :
    (abciQuery "sdk" 32 (mismatchLog expected got)).Expects expected where
  mismatch := by simp [isSequenceMismatch, chainCode?, RegisteredError.wrongSequence,
    RegisteredError.rootCodespace]
  retryable := rfl
  names := expectedSequence?_mismatchLog expected got

theorem expects_ofTxCode (expected got : UInt64) :
    (ofTxCode "sdk" 32 (mismatchLog expected got)).Expects expected where
  mismatch := by simp [ofTxCode, RegisteredError.resolve?_wrongSequence, isSequenceMismatch,
    chainCode?]
  retryable := by
    simp only [ofTxCode, RegisteredError.resolve?_wrongSequence, isRetryable]
    decide
  names := by
    simp only [ofTxCode, RegisteredError.resolve?_wrongSequence]
    exact expectedSequence?_mismatchLog expected got

theorem Expects.isFinal_step {e : RelayError} {expected : UInt64} (he : e.Expects expected) :
    RetryScope.step.isFinal e = true := by
  simp [RetryScope.isFinal, he.mismatch]

theorem Expects.isFinal_submission {e : RelayError} {expected : UInt64}
    (he : e.Expects expected) : RetryScope.submission.isFinal e = false := by
  simp [RetryScope.isFinal, he.retryable]

theorem Expects.next_afterFailure {e : RelayError} {expected : UInt64} (he : e.Expects expected)
    (s : SequenceState) : (s.afterFailure e).next = expected := by
  simp [SequenceState.afterFailure, he.mismatch, SequenceState.resync, he.names]

theorem isSequenceMismatch_iff {e : RelayError} : e.isSequenceMismatch = true ↔
    e.chainCode? = some ("sdk", 32) ∨
      RegisteredError.wrongSequence.description.toList <:+: e.message.toList := by
  rw [isSequenceMismatch, Bool.or_eq_true, decide_eq_true_iff, Text.contains_iff]
  rfl

/-- An error without a chain's code is no mismatch if its message lacks a character of the
wording. -/
theorem not_isSequenceMismatch_of_not_mem {e : RelayError} {c : Char} (hcode : e.chainCode? = none)
    (hc : c ∈ RegisteredError.wrongSequence.description.toList) (hmissing : c ∉ e.message.toList) :
    e.isSequenceMismatch ≠ true := by
  rw [Ne, isSequenceMismatch_iff, hcode, not_or]
  exact ⟨nofun, fun hwording => hmissing (hwording.subset hc)⟩

theorem toList_message_retriesExhausted (attempts : Nat) (errors : List String) :
    (retriesExhausted attempts errors).message.toList =
      ("all " ++ Decimal.text attempts ++ " attempts failed").toList ++ ':' ::
        (' ' :: [';', ' '].intercalate (errors.map String.toList)) := by
  have htext : (retriesExhausted attempts errors).message = "all " ++ Decimal.text attempts ++
    " attempts failed: " ++ "; ".intercalate errors := rfl
  have hcolon : " attempts failed: ".toList = " attempts failed".toList ++ [':', ' '] := by
    decide +kernel
  have hsep : "; ".toList = [';', ' '] := by decide +kernel
  rw [htext, String.toList_append, String.toList_append, hcolon, String.toList_intercalate, hsep,
    String.toList_append]
  simp

/-- A report of failed attempts is a mismatch if one of the texts that it was made from has the
wording. -/
theorem isSequenceMismatch_retriesExhausted_iff {attempts : Nat} {errors : List String} :
    (retriesExhausted attempts errors).isSequenceMismatch = true ↔
      ∃ text ∈ errors, RegisteredError.wrongSequence.description.toList <:+: text.toList := by
  have hq : 'q' ∉ ("all " ++ Decimal.text attempts ++ " attempts failed").toList := by
    have hnumeral : 'q' ∉ (Decimal.text attempts).toList := Decimal.notMem_text (by decide) _
    simp only [String.toList_append, List.mem_append, hnumeral]
    decide +kernel
  have hhead : ¬ RegisteredError.wrongSequence.description.toList <:+:
      ("all " ++ Decimal.text attempts ++ " attempts failed").toList :=
    fun hwording => hq (hwording.subset (by decide +kernel))
  -- the wording has neither a colon nor a semicolon, and does not begin with a blank
  rw [isSequenceMismatch_iff, toList_message_retriesExhausted,
    Text.infix_append_cons_iff (by decide +kernel),
    Text.infix_cons_iff_of_head?_ne (by decide +kernel) (by decide +kernel),
    Text.infix_intercalate_iff (by decide +kernel) (by decide +kernel) (by decide +kernel)]
  simp only [chainCode?, reduceCtorEq, hhead, false_or, List.mem_map, exists_exists_and_eq_and]

theorem not_isSequenceMismatch_infiniteGas (gasUsed : UInt64) (adjustment : Float) :
    (infiniteGas gasUsed adjustment).isSequenceMismatch ≠ true := by
  have hgas : 'q' ∉ (Decimal.text gasUsed.toNat).toList := Decimal.notMem_text (by decide) _
  have hadjustment : 'q' ∉ (Decimal.floatText adjustment).toList :=
    fun hc => absurd (Decimal.mem_floatText hc) (by decide +kernel)
  have hmessage : (infiniteGas gasUsed adjustment).message = "infinite gas used (gas used " ++
      Decimal.text gasUsed.toNat ++ ", adjustment " ++ Decimal.floatText adjustment ++ ")" := rfl
  refine not_isSequenceMismatch_of_not_mem (c := 'q') rfl (by decide +kernel) ?_
  simp only [hmessage, String.toList_append, List.mem_append, hgas, hadjustment]
  decide +kernel

theorem not_isSequenceMismatch_packet (error : PacketError) :
    (packet error).isSequenceMismatch ≠ true := by
  have hq (n : UInt64) : 'q' ∉ (Decimal.text n.toNat).toList := Decimal.notMem_text (by decide) _
  have hr (n : UInt64) : 'r' ∉ (Decimal.text n.toNat).toList := Decimal.notMem_text (by decide) _
  cases error with
  | zeroSequence | emptyData | missingTimeout => decide +kernel
  | timeoutHeight latest timeout =>
      have hmessage : (packet (.timeoutHeight latest timeout)).message =
        "latest height " ++ Decimal.text latest.toNat ++ " is greater than expiration height: "
          ++ Decimal.text timeout.toNat := rfl
      refine not_isSequenceMismatch_of_not_mem (c := 'q') rfl (by decide +kernel) ?_
      simp only [hmessage, String.toList_append, List.mem_append, hq]
      decide +kernel
  | timeoutTimestamp latest timeout =>
      have hmessage : (packet (.timeoutTimestamp latest timeout)).message =
        "latest block timestamp " ++ Decimal.text latest.toNat
          ++ " is greater than expiration timestamp: " ++ Decimal.text timeout.toNat := rfl
      refine not_isSequenceMismatch_of_not_mem (c := 'q') rfl (by decide +kernel) ?_
      simp only [hmessage, String.toList_append, List.mem_append, hq]
      decide +kernel
  | timeoutOnClose sequence =>
      have hmessage : (packet (.timeoutOnClose sequence)).message =
        "packet timed out on channel close: sequence " ++ Decimal.text sequence.toNat := rfl
      -- this message holds the words but one: it lacks a character of the second
      refine not_isSequenceMismatch_of_not_mem (c := 'r') rfl (by decide +kernel) ?_
      simp only [hmessage, String.toList_append, List.mem_append, hr]
      decide +kernel

/-- The errors with which a chain answers a transaction for good, and those of a configuration. -/
inductive Definitive : RelayError → Prop where
  | rejected {error : RegisteredError} (log : String) : error.isRetryable = false →
    Definitive (rejected error log)
  | executionFailed (codespace : String) (code : UInt32) (log : String) :
    Definitive (executionFailed codespace code log)
  | config (cause : String) : Definitive (config cause)

/-- Of the sequence mismatches a loop of submissions gives up on just the definitive ones. -/
theorem isFinal_submission_iff {e : RelayError} (he : e.isSequenceMismatch = true) :
    RetryScope.submission.isFinal e = true ↔ e.Definitive := by
  have hfinal : RetryScope.submission.isFinal e = true ↔ e.isRetryable = false := by
    simp [RetryScope.isFinal]
  rw [hfinal]
  constructor
  · intro hretry
    cases e with
    | rejected error log => exact .rejected log hretry
    | executionFailed codespace code log => exact .executionFailed codespace code log
    | config cause => exact .config cause
    | infiniteGas gasUsed adjustment => exact absurd he (not_isSequenceMismatch_infiniteGas _ _)
    | packet error => exact absurd he (not_isSequenceMismatch_packet error)
    | cancelled => exact absurd he (by decide +kernel)
    | indexingDisabled => exact absurd he (by decide +kernel)
    | _ => cases hretry
  · rintro (⟨_, hretry⟩ | _ | _)
    · exact hretry
    · rfl
    · rfl

/-- An answer of a chain leaves room for a fresh attempt if the mempool is full or its code is the one
for a wrong sequence. -/
theorem isRetryable_ofTxCode_iff {codespace log : String} {code : UInt32} :
    (ofTxCode codespace code log).isRetryable = true ↔
      codespace = "sdk" ∧ (code = 20 ∨ code = 32) := by
  constructor
  · intro he
    unfold ofTxCode RegisteredError.resolve? at he
    split at he
    · next error herror =>
      split at herror
      · next hspace =>
        obtain ⟨description, _, rfl⟩ := Option.map_eq_some_iff.mp herror
        obtain ⟨_, hcode⟩ := Bool.and_eq_true_iff.mp he
        exact ⟨hspace, by simpa using hcode⟩
      · cases herror
    · cases he
  · have hfull : RegisteredError.resolve? "sdk" 20 = some ⟨"sdk", 20, "mempool is full"⟩ := by
      decide
    rintro ⟨rfl, rfl | rfl⟩
    · simp only [ofTxCode, hfull, isRetryable]
      decide
    · simp only [ofTxCode, RegisteredError.resolve?_wrongSequence, isRetryable]
      decide

/-- Of the answers of a chain those are definitive that report neither a full mempool nor, by its
code, a wrong sequence. -/
theorem definitive_ofTxCode_iff {codespace log : String} {code : UInt32} :
    (ofTxCode codespace code log).Definitive ↔ ¬ (codespace = "sdk" ∧ (code = 20 ∨ code = 32)) := by
  have hretryable : (ofTxCode codespace code log).isRetryable = true ↔ _ := isRetryable_ofTxCode_iff
  rw [← hretryable, Bool.not_eq_true]
  unfold ofTxCode
  split
  · constructor
    · rintro (⟨_, hretry⟩ | _ | _)
      exact hretry
    · exact fun hretry => .rejected log hretry
  · exact iff_of_true (.executionFailed _ _ _) rfl

/-- The wording at the end of a chain's log is enough for a mismatch, whatever its code. -/
theorem isSequenceMismatch_ofTxCode {codespace log : String} {code : UInt32}
    (hlog : RegisteredError.wrongSequence.description.toList <:+: log.toList) :
    (ofTxCode codespace code log).isSequenceMismatch = true := by
  have hne : log ≠ "" := by
    rintro rfl
    revert hlog
    decide +kernel
  refine isSequenceMismatch_iff.mpr (.inr (hlog.trans (List.IsSuffix.isInfix ?_)))
  unfold ofTxCode
  split
  · exact suffix_toList_append _ _
  · rw [if_neg hne]
    exact suffix_toList_append _ _

theorem chainLog_ofTxCode {codespace log : String} {code : UInt32} (hne : log ≠ "") :
    (ofTxCode codespace code log).chainLog = log := by
  unfold ofTxCode
  split
  · rfl
  · rw [if_neg hne, chainLog]

/-- Whatever code a chain rejects a sequence with, the expected one is known from its log. -/
theorem names_ofTxCode_mismatchLog (codespace : String) (code : UInt32) (expected got : UInt64) :
    (ofTxCode codespace code (mismatchLog expected got)).Names expected := by
  have hwording : RegisteredError.wrongSequence.description.toList <:+:
      (mismatchLog expected got).toList := by
    have hwords : RegisteredError.wrongSequence.description.toList <:+:
        ": incorrect account sequence".toList := Text.contains_iff.mp (by decide +kernel)
    exact hwords.trans (suffix_toList_append _ _).isInfix
  have hne : mismatchLog expected got ≠ "" := by
    intro hempty
    rw [hempty] at hwording
    revert hwording
    decide +kernel
  rw [names_iff, SequenceState.expectedBy, chainLog_ofTxCode hne]
  exact ⟨isSequenceMismatch_ofTxCode hwording, expectedSequence?_mismatchLog expected got⟩

end RelayError

end PacketRelay
