import PacketRelay.Relay

/-!
# How packets are judged

A packet is judged by its faults first and then by the rules of expiry, in their order.  Heights are
compared by revision first, and times as whole numbers of nanoseconds.
-/

namespace PacketRelay

namespace Height

theorem not_lt_iff {a b : Height} : ¬ a < b ↔ b ≤ a := by
  have hlt : a < b ↔ a.revisionNumber < b.revisionNumber ∨
      a.revisionNumber = b.revisionNumber ∧ a.revisionHeight < b.revisionHeight := Iff.rfl
  have hle : b ≤ a ↔ b.revisionNumber < a.revisionNumber ∨
      b.revisionNumber = a.revisionNumber ∧ b.revisionHeight ≤ a.revisionHeight := Iff.rfl
  rw [hlt, hle]
  simp only [UInt64.lt_iff_toNat_lt, UInt64.le_iff_toNat_le, ← UInt64.toNat_inj]
  omega

theorem isZero_iff {h : Height} : h.isZero = true ↔ h = .zero := by
  obtain ⟨number, height⟩ := h
  simp [isZero, zero]

end Height

/-- What a block time counts for against a timeout timestamp: its nanoseconds, or the greatest
timestamp where these exceed 64 signed bits, before the epoch as well as after it. -/
def BlockTime.judgedNanos (t : BlockTime) : Int :=
  if -0x8000000000000000 ≤ t.unixNanos ∧ t.unixNanos < 0x8000000000000000 then t.unixNanos
  else 0xffffffffffffffff

theorem BlockTime.lt_timestamp_iff {t : BlockTime} {n : UInt64} :
    n < t.timestamp ↔ (n.toNat : Int) < t.judgedNanos := by
  have hn := n.toNat_lt
  rw [UInt64.lt_iff_toNat_lt]
  unfold timestamp judgedNanos
  by_cases hrange : -0x8000000000000000 ≤ t.unixNanos ∧ t.unixNanos < 0x8000000000000000
  · have hsmall : t.unixNanos.toNat < UInt64.size := by
      rw [UInt64.size]
      omega
    rw [if_pos hrange, if_pos hrange, UInt64.toNat_ofNat_of_lt' hsmall]
    omega
  · have hgreatest : (UInt64.ofNat (1 <<< 64 - 1)).toNat = 0xffffffffffffffff := rfl
    rw [if_neg hrange, if_neg hrange, hgreatest]
    omega

theorem BlockTime.timestamp_lt_judgedNanos_iff {t : BlockTime} {n : UInt64} :
    ((n.toNat : Int) < t.judgedNanos ↔ (n.toNat : Int) < t.unixNanos) ↔
      ¬ if n.toNat = 0xffffffffffffffff then 0xffffffffffffffff < t.unixNanos
        else t.unixNanos < -0x8000000000000000 ∨
          0x8000000000000000 ≤ t.unixNanos ∧ t.unixNanos ≤ n.toNat := by
  have hn := n.toNat_lt
  unfold judgedNanos
  split <;> split <;> omega

namespace Packet

/-- Why a packet is refused whatever its destination says. -/
def fault? (p : Packet) : Option PacketError :=
  if p.sequence = 0 then some .zeroSequence
  else if p.data = [] then some .emptyData
  else if p.timeoutHeight = .zero ∧ p.timeoutTimestamp = 0 then some .missingTimeout
  else none

/-- The first rule by which a packet expired, at a height of a chain with this revision and at a
number of nanoseconds since the epoch. -/
def expiryAt (p : Packet) (revision height : UInt64) (nanos : Int) (state : ChannelState) :
    Option Expiry :=
  if p.timeoutHeight ≠ .zero ∧ ¬ (⟨revision, height⟩ : Height) < p.timeoutHeight then some .height
  else if p.timeoutTimestamp ≠ 0 ∧ (p.timeoutTimestamp.toNat : Int) < nanos then some .timestamp
  else if state = .closed then some .channelClosed
  else none

/-- The timeout timestamp decides, and the block time lies so far off that it counts for the wrong
side of it. -/
def Misjudged (p : Packet) (revision height : UInt64) (t : BlockTime) : Prop :=
  (p.timeoutHeight = .zero ∨ (⟨revision, height⟩ : Height) < p.timeoutHeight) ∧
    p.timeoutTimestamp ≠ 0 ∧
    if p.timeoutTimestamp.toNat = 0xffffffffffffffff then 0xffffffffffffffff < t.unixNanos
    else t.unixNanos < -0x8000000000000000 ∨
      0x8000000000000000 ≤ t.unixNanos ∧ t.unixNanos ≤ p.timeoutTimestamp.toNat

theorem expiryAt_judgedNanos_eq_iff (p : Packet) (revision height : UInt64) (t : BlockTime)
    (state : ChannelState) :
    p.expiryAt revision height t.judgedNanos state = p.expiryAt revision height t.unixNanos state ↔
      ¬ p.Misjudged revision height t := by
  unfold expiryAt Misjudged
  by_cases hheight : p.timeoutHeight ≠ .zero ∧ ¬ (⟨revision, height⟩ : Height) < p.timeoutHeight
  · simp [hheight]
  have hlive : p.timeoutHeight = .zero ∨ (⟨revision, height⟩ : Height) < p.timeoutHeight := by
    simpa [Decidable.or_iff_not_imp_left] using hheight
  rw [if_neg hheight, if_neg hheight]
  by_cases hunset : p.timeoutTimestamp = 0
  · simp [hunset]
  have hrest : (if state = .closed then some Expiry.channelClosed else none) ≠ some .timestamp := by
    cases state <;> simp
  simp only [hlive, hunset, true_and, ne_eq, not_false_eq_true, ← BlockTime.timestamp_lt_judgedNanos_iff]
  by_cases hjudged : (p.timeoutTimestamp.toNat : Int) < t.judgedNanos <;>
    by_cases hnanos : (p.timeoutTimestamp.toNat : Int) < t.unixNanos <;>
    simp [hjudged, hnanos, hrest, hrest.symm]

theorem expiryOf_validate (p : Packet) (height : UInt64) (t : BlockTime) (chain : String)
    (state : ChannelState) :
    expiryOf (p.validate ⟨height, t⟩ chain state) =
      match p.fault? with
      | some e => .error (.packet e)
      | none => .ok (p.expiryAt (ChainId.revision chain) height t.judgedNanos state) := by
  have htime : 0 < p.timeoutTimestamp ↔ p.timeoutTimestamp ≠ 0 := UInt64.pos_iff_ne_zero
  simp only [validate, Height.isZero_iff, ← Height.not_lt_iff, htime, BlockTime.lt_timestamp_iff]
  unfold fault? expiryAt
  by_cases hsequence : p.sequence = 0
  · rw [if_pos hsequence, if_pos hsequence]
    rfl
  rw [if_neg hsequence, if_neg hsequence]
  by_cases hdata : p.data = []
  · rw [if_pos hdata, if_pos hdata]
    rfl
  rw [if_neg hdata, if_neg hdata]
  by_cases hmissing : p.timeoutHeight = .zero ∧ p.timeoutTimestamp = 0
  · rw [if_pos hmissing, if_pos hmissing]
    rfl
  rw [if_neg hmissing, if_neg hmissing]
  by_cases hheight : p.timeoutHeight ≠ .zero ∧
      ¬ (⟨ChainId.revision chain, height⟩ : Height) < p.timeoutHeight
  · rw [if_pos hheight, if_pos hheight]
    rfl
  rw [if_neg hheight, if_neg hheight]
  by_cases hpast : p.timeoutTimestamp ≠ 0 ∧ (p.timeoutTimestamp.toNat : Int) < t.judgedNanos
  · rw [if_pos hpast, if_pos hpast]
    rfl
  rw [if_neg hpast, if_neg hpast]
  by_cases hclosed : state = .closed
  · rw [if_pos hclosed, if_pos hclosed]
    rfl
  rw [if_neg hclosed, if_neg hclosed]
  rfl

/-- An error that is not about expiry is a fault of the packet, wherever it is judged. -/
theorem validate_eq_error_iff {p : Packet} {latest : LatestBlock} {chain : String}
    {state : ChannelState} {e : PacketError} (he : e.expiry? = none) :
    p.validate latest chain state = .error e ↔ p.fault? = some e := by
  obtain ⟨height, t⟩ := latest
  have hjudged := p.expiryOf_validate height t chain state
  constructor
  · intro herror
    rw [herror, expiryOf, he] at hjudged
    cases hfault : p.fault? with
    | some e' =>
        rw [hfault] at hjudged
        cases hjudged
        rfl
    | none =>
        rw [hfault] at hjudged
        cases hjudged
  · intro hfault
    rw [hfault] at hjudged
    cases herror : p.validate ⟨height, t⟩ chain state with
    | ok _ =>
        rw [herror] at hjudged
        cases hjudged
    | error e' =>
        rw [herror, expiryOf] at hjudged
        cases hexpiry : e'.expiry? <;> rw [hexpiry] at hjudged <;> cases hjudged
        rfl

end Packet

end PacketRelay
