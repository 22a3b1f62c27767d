import PacketRelay.Proofs.Packet.Expiry

/-!
# Expired packets stay expired

As the destination advances, a packet that expired by height stays expired.  One that expired by its
timestamp does too, except where the later block has the smaller timestamp: behind a block from
before the range of 64 signed bits, which counts as the latest of all, and behind one within a leap
second.
-/

namespace PacketRelay

namespace BlockTime

/-- Seconds come first.  Within a leap second there are more than a thousand million nanoseconds. -/
instance : LE BlockTime where
  le s t := s.seconds < t.seconds ∨ s.seconds = t.seconds ∧ s.nanos ≤ t.nanos

instance (s t : BlockTime) : Decidable (s ≤ t) := inferInstanceAs (Decidable (_ ∨ _ ∧ _))

theorem le_iff {s t : BlockTime} :
    s ≤ t ↔ s.seconds < t.seconds ∨ s.seconds = t.seconds ∧ s.nanos ≤ t.nanos := Iff.rfl

theorem unixNanos_le_of_le {s t : BlockTime} (hle : s ≤ t) (hs : s.nanos < 1000000000) :
    s.unixNanos ≤ t.unixNanos := by
  rw [le_iff] at hle
  unfold unixNanos
  omega

theorem toNat_timestamp (t : BlockTime) :
    (t.timestamp.toNat : Int) =
      if -0x8000000000000000 ≤ t.unixNanos ∧ t.unixNanos < 0x8000000000000000 then
        max 0 t.unixNanos
      else 0xffffffffffffffff := by
  unfold timestamp
  by_cases hrange : -0x8000000000000000 ≤ t.unixNanos ∧ t.unixNanos < 0x8000000000000000
  · have hsmall : t.unixNanos.toNat < UInt64.size := by
      rw [UInt64.size]
      omega
    rw [if_pos hrange, if_pos hrange, UInt64.toNat_ofNat_of_lt' hsmall]
    omega
  · rw [if_neg hrange, if_neg hrange]
    rfl

/-- The second moment has the smaller timestamp, though it is not the earlier one. -/
def TurnsBack (s t : BlockTime) : Prop :=
  (-0x8000000000000000 ≤ t.unixNanos ∧ t.unixNanos < 0x8000000000000000) ∧
    (s.unixNanos < -0x8000000000000000 ∨
      1000000000 ≤ s.nanos ∧ 0 < s.unixNanos ∧ t.unixNanos < s.unixNanos)

instance (s t : BlockTime) : Decidable (s.TurnsBack t) :=
  inferInstanceAs (Decidable ((_ ∧ _) ∧ (_ ∨ _ ∧ _ ∧ _)))

theorem timestamp_le_iff {s t : BlockTime} (hle : s ≤ t) :
    s.timestamp ≤ t.timestamp ↔ ¬ s.TurnsBack t := by
  have hs := s.toNat_timestamp
  have ht := t.toNat_timestamp
  have horder : s.nanos < 1000000000 → s.unixNanos ≤ t.unixNanos := unixNanos_le_of_le hle
  rw [UInt64.le_iff_toNat_le]
  unfold TurnsBack
  split at hs <;> split at ht <;> omega

end BlockTime

namespace Packet

/-- Judged by this block, the packet expired by height or by timestamp. -/
def Expired (p : Packet) (chain : String) (state : ChannelState) (b : LatestBlock) : Prop :=
  ∃ e, p.validate b chain state = .error e ∧
    (e.expiry? = some .height ∨ e.expiry? = some .timestamp)

/-- The height does not make the packet expire. -/
def LiveAt (p : Packet) (chain : String) (height : UInt64) : Prop :=
  p.timeoutHeight = .zero ∨ (⟨ChainId.revision chain, height⟩ : Height) < p.timeoutHeight

theorem LiveAt.mono {p : Packet} {chain : String} {m n : UInt64} (hn : p.LiveAt chain n)
    (hle : m ≤ n) : p.LiveAt chain m := by
  rcases hn with hzero | hlt
  · exact .inl hzero
  · right
    rcases hlt with hrevision | ⟨hrevision, hheight⟩
    · exact .inl hrevision
    · exact .inr ⟨hrevision, UInt64.lt_of_le_of_lt hle hheight⟩

theorem expiryOf_eq_ok_some_iff {judged : Except PacketError Unit} {reason : Expiry} :
    expiryOf judged = .ok (some reason) ↔ ∃ e, judged = .error e ∧ e.expiry? = some reason := by
  cases judged with
  | ok _ => simp [expiryOf]
  | error e => cases hreason : e.expiry? <;> simp [expiryOf, hreason]

theorem expired_iff {p : Packet} {chain : String} {state : ChannelState} {b : LatestBlock} :
    p.Expired chain state b ↔ p.fault? = none ∧
      (¬ p.LiveAt chain b.height ∨
        p.timeoutTimestamp ≠ 0 ∧ p.timeoutTimestamp < b.time.timestamp) := by
  obtain ⟨height, t⟩ := b
  have hreasons : p.Expired chain state ⟨height, t⟩ ↔
      expiryOf (p.validate ⟨height, t⟩ chain state) = .ok (some .height) ∨
        expiryOf (p.validate ⟨height, t⟩ chain state) = .ok (some .timestamp) := by
    rw [expiryOf_eq_ok_some_iff, expiryOf_eq_ok_some_iff, ← exists_or]
    exact exists_congr fun e => and_or_left
  have hlive : ¬ p.LiveAt chain height ↔ p.timeoutHeight ≠ .zero ∧
      ¬ (⟨ChainId.revision chain, height⟩ : Height) < p.timeoutHeight := not_or
  have hclosed : (if state = .closed then some Expiry.channelClosed else none) ≠ some .height ∧
      (if state = .closed then some Expiry.channelClosed else none) ≠ some .timestamp := by
    cases state <;> simp
  rw [hreasons, expiryOf_validate, BlockTime.lt_timestamp_iff, hlive]
  cases hfault : p.fault? with
  | some e => simp
  | none =>
      unfold expiryAt
      by_cases hpassed : p.timeoutHeight ≠ .zero ∧
          ¬ (⟨ChainId.revision chain, height⟩ : Height) < p.timeoutHeight
      · simp [hpassed]
      by_cases hlate : p.timeoutTimestamp ≠ 0 ∧ (p.timeoutTimestamp.toNat : Int) < t.judgedNanos
      · simp [if_neg hpassed, hlate]
      · simp [hpassed, hlate, hclosed]

/-- When a block of the destination follows an earlier one, its timestamp is no smaller unless the
time turns back, and a packet that expired by height or timestamp is expired still unless its time
turned back to before the timeout. -/
theorem expired_stays_expired (p : Packet) (chain : String) (state state' : ChannelState)
    {b b' : LatestBlock} (hheight : b.height ≤ b'.height) (htime : b.time ≤ b'.time) :
    (b.time.timestamp ≤ b'.time.timestamp ↔ ¬ b.time.TurnsBack b'.time) ∧
      (p.Expired chain state b →
        (¬ p.Expired chain state' b' ↔ p.LiveAt chain b'.height ∧ b.time.TurnsBack b'.time ∧
          b'.time.unixNanos ≤ p.timeoutTimestamp.toNat)) := by
  have hmono := BlockTime.timestamp_le_iff htime
  refine ⟨hmono, ?_⟩
  intro hexpired
  obtain ⟨hfault, hrules⟩ := expired_iff.mp hexpired
  rw [expired_iff]
  have hnanos := b'.time.toNat_timestamp
  constructor
  · intro hlater
    have hlive : p.LiveAt chain b'.height := by
      apply Classical.byContradiction
      intro hpassed
      exact hlater ⟨hfault, .inl hpassed⟩
    obtain hpassed | ⟨hset, hlate⟩ := hrules
    · exact absurd (hlive.mono hheight) hpassed
    have hearly : b'.time.timestamp ≤ p.timeoutTimestamp := by
      apply UInt64.not_lt.mp
      intro hlt
      exact hlater ⟨hfault, .inr ⟨hset, hlt⟩⟩
    have hback : b.time.TurnsBack b'.time := by
      apply Decidable.byContradiction
      intro hforth
      have hle := UInt64.le_trans (hmono.mpr hforth) hearly
      exact UInt64.not_le.mpr hlate hle
    refine ⟨hlive, hback, ?_⟩
    rw [if_pos hback.1] at hnanos
    rw [UInt64.le_iff_toNat_le] at hearly
    omega
  · rintro ⟨hlive, hback, hbefore⟩ ⟨_, hpassed | ⟨_, hlate⟩⟩
    · exact hpassed hlive
    · rw [if_pos hback.1] at hnanos
      rw [UInt64.lt_iff_toNat_lt] at hlate
      omega

/-- A transfer that may be received until the end of 2023 counts as expired in the year 1336 and as
deliverable in 1970. -/
theorem expired_stays_expired_far_past :
    let p : Packet := ⟨10, 5, "transfer", "channel-0", "transfer", "channel-7", [0x7b, 0x7d], .zero,
      1700000000000000000, []⟩
    let b : LatestBlock := ⟨100, ⟨-20000000000, 0⟩⟩
    let b' : LatestBlock := ⟨100, ⟨0, 0⟩⟩
    b.height ≤ b'.height ∧ b.time ≤ b'.time ∧ p.Expired "dstchain" .opened b ∧
      ¬ b.time.timestamp ≤ b'.time.timestamp ∧ ¬ p.Expired "dstchain" .opened b' := by
  intro p b b'
  have hheight : b.height ≤ b'.height := by decide
  have htime : b.time ≤ b'.time := by decide
  have hexpired : p.Expired "dstchain" .opened b :=
    expired_iff.mpr ⟨by decide, .inr ⟨by decide, by decide⟩⟩
  have hback : b.time.TurnsBack b'.time := by decide
  obtain ⟨hmono, hstays⟩ := expired_stays_expired p "dstchain" .opened .opened hheight htime
  exact ⟨hheight, htime, hexpired, fun hle => hmono.mp hle hback,
    (hstays hexpired).mpr ⟨.inl rfl, hback, by decide⟩⟩

end Packet

end PacketRelay
