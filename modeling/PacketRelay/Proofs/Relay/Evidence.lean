import PacketRelay.Proofs.Relay.Decision
import PacketRelay.Proofs.Schema.Fields

/-!
# The height of a message's evidence

A node that answers at the height asked proves an entry at the height that it was asked for, and a
message carries that height.  So a timeout holds at the block by which its packet was judged.  The
first two heights are refused before the node is asked.
-/

namespace PacketRelay

open Program
open Schema.Message (ofNumber ofText ofBytes ofMessage)

variable {dest source : Provider} {r : RelayRequest} {packet : Packet} {s : Signal}
  {h : List Exchange} {m : RelayMessage}

/-- The type of a message, and the field in which it has the height of its proof. -/
def RelayMessage.heightField : RelayMessage → Schema.MessageType × Nat
  | .receive .. => (.msgRecvPacket, 3)
  | .timeout _ _ .channelClosed => (.msgTimeoutOnClose, 4)
  | .timeout _ _ _ => (.msgTimeout, 3)

/-- The message and its proof are of this height. -/
def RelayMessage.StandsAt (m : RelayMessage) (height : Height) : Prop :=
  m.proof.height = height ∧ ∃ fields, m.msg = Any.pack m.heightField.1 fields ∧
    Height.ofMessage? (fields.message? m.heightField.2) = height

/-- The chain that proves a message, by the rule under which its packet expired. -/
def RelayRequest.prover (dest source : Provider) : Option Expiry → Provider
  | none => source
  | some _ => dest

/-- The height at which that chain is asked. -/
def RelayRequest.proofHeight (r : RelayRequest) : Option Expiry → UInt64
  | none => r.sourceHeight
  | some _ => r.destHeight

/-- Packet and proof stand in the first two fields. -/
theorem lookup_packetProof {field : Nat} (hfield : 2 < field) {packet : Schema.Message}
    {proof : Bytes} : List.lookup field (ofMessage 1 packet ++ ofBytes 2 proof) = none := by
  rw [List.lookup_append, Schema.Message.lookup_ofMessage_of_ne (by omega),
    Schema.Message.lookup_ofBytes_of_ne (by omega), Option.or_none]

theorem Delivers.standsAt (hd : Delivers dest source r packet h m) (hh : HeightsKept h)
    (hheight : 3 ≤ r.sourceHeight) : m.StandsAt ⟨source.revision, r.sourceHeight⟩ := by
  obtain ⟨a, proof, g, signer, hproves, _, rfl, rfl⟩ := hd
  have hproof : proof.height = ⟨source.revision, r.sourceHeight⟩ :=
    hproves.height_eq (hh.mono (by simp)) hheight
  refine ⟨hproof, _, rfl, ?_⟩
  rw [RelayMessage.heightField, List.append_assoc,
    Height.ofMessage?_append (lookup_packetProof (by decide)), hproof]

theorem TimesOut.standsAt {reason : Expiry} (ht : TimesOut dest source r packet reason h m)
    (hh : HeightsKept h) (hheight : 3 ≤ r.destHeight) :
    m.StandsAt ⟨dest.revision, r.destHeight⟩ := by
  obtain ⟨a, proof, g, signer, hproves, rfl, rfl⟩ := ht
  have hproof : proof.height = ⟨dest.revision, r.destHeight⟩ :=
    hproves.height_eq (hh.mono (by simp)) hheight
  have hread (field : Nat) (hfield : 2 < field) (x y : Schema.Message) :
      Height.ofMessage? (Schema.Message.message? (ofMessage 1 packet.toMessage ++
        ofBytes 2 proof.proof ++ ofMessage field proof.height.toMessage ++ x ++ y) field) =
          ⟨dest.revision, r.destHeight⟩ := by
    rw [List.append_assoc _ x, List.append_assoc,
      Height.ofMessage?_append (lookup_packetProof hfield), hproof]
  refine ⟨hproof, ?_⟩
  cases reason with
  | height => exact ⟨_, rfl, hread 3 (by decide) _ _⟩
  | timestamp => exact ⟨_, rfl, hread 3 (by decide) _ _⟩
  | channelClosed => exact ⟨_, rfl, hread 4 (by decide) _ _⟩

theorem Decides.standsAt {nanos : Int} (hd : Decides dest source r packet nanos h m)
    (hh : HeightsKept h) (hheight : 3 ≤ r.proofHeight m.reason?) :
    m.StandsAt ⟨(RelayRequest.prover dest source m.reason?).revision, r.proofHeight m.reason?⟩ := by
  have hreason := hd.reason
  unfold Decides at hd
  split at hd
  · next hexpiry =>
    rw [hreason, hexpiry] at hheight ⊢
    exact hd.standsAt hh hheight
  · next reason hexpiry =>
    rw [hreason, hexpiry] at hheight ⊢
    exact hd.standsAt hh hheight

namespace Packet

variable {revision height : UInt64} {nanos : Int} {state : ChannelState}

theorem timeoutHeight_le_of_expiryAt
    (hexpiry : packet.expiryAt revision height nanos state = some .height) :
    packet.timeoutHeight ≤ ⟨revision, height⟩ := by
  unfold expiryAt at hexpiry
  split at hexpiry
  · next hpast => exact Height.not_lt_iff.mp hpast.2
  · split at hexpiry
    · cases hexpiry
    · split at hexpiry <;> cases hexpiry

theorem timeoutTimestamp_lt_of_expiryAt
    (hexpiry : packet.expiryAt revision height nanos state = some .timestamp) :
    (packet.timeoutTimestamp.toNat : Int) < nanos := by
  unfold expiryAt at hexpiry
  split at hexpiry
  · cases hexpiry
  · split at hexpiry
    · next hpast => exact hpast.2
    · split at hexpiry <;> cases hexpiry

end Packet

/-- The refusal of a proof at one of the first two heights. -/
def unprovable : RelayError := .invalidHeight "proof queries at height <= 2 are not supported"

namespace Provider

variable {p : Provider} {height : UInt64}

theorem queryProof_of_low (hlow : height = 1 ∨ height = 2) (key : Bytes) :
    p.queryProof height key = throw unprovable := by
  rcases hlow with rfl | rfl <;> rfl

theorem proveMember_of_low (hlow : height = 1 ∨ height = 2) (key : StoreKey) (absent : String) :
    p.proveMember height key absent = throw unprovable := by
  unfold proveMember
  rw [queryProof_of_low hlow, Attempt.throw_bind]

theorem proveEntry_of_low (hlow : height = 1 ∨ height = 2) (key : StoreKey) :
    p.proveEntry height key = throw unprovable := by
  unfold proveEntry
  rw [queryProof_of_low hlow, Attempt.throw_bind]

end Provider

/-- A part that fails without a request makes none under a guard either. -/
theorem Attempt.Guarded.of_throw {α : Type} {e : RelayError} {res : Except RelayError α}
    (hg : Guarded s (throw e) h res) :
    h = [.answered .rest ()] ∧ res = .error e ∨
      ∃ n, s = some n ∧ h = [.stopped n .rest] ∧ res = .error .cancelled := by
  cases hg with
  | fired hs => exact .inr ⟨_, hs, rfl, rfl⟩
  | finished hy =>
      obtain ⟨rfl, rfl⟩ := yields_throw_iff.mp hy
      exact .inl ⟨rfl, rfl⟩
  | dropped _ hreach =>
      obtain ⟨_, hask⟩ := Reaches.of_done hreach
      cases hask

/-- What is proven at one of the first two heights is not asked for. -/
theorem settlePacket_of_low {reason : Option Expiry} {res : Except RelayError RelayMessage}
    (hlow : r.proofHeight reason = 1 ∨ r.proofHeight reason = 2)
    (hy : (settlePacket dest source r packet s reason).run.Yields h res) :
    h = [.answered .rest ()] ∧ res = .error unprovable ∨
      ∃ n, s = some n ∧ h = [.stopped n .rest] ∧ res = .error .cancelled := by
  have hthrow : ∃ f : PacketProof → Attempt RelayMessage,
      settlePacket dest source r packet s reason = Attempt.guard s (throw unprovable) >>= f := by
    cases reason with
    | none =>
        have hsource : r.sourceHeight = 1 ∨ r.sourceHeight = 2 := hlow
        rw [settlePacket, Provider.packetCommitment, Provider.proveMember_of_low hsource]
        exact ⟨_, rfl⟩
    | some reason =>
        have hdest : r.destHeight = 1 ∨ r.destHeight = 2 := hlow
        rw [settlePacket, unreceivedProof_eq, Provider.proveEntry_of_low hdest]
        exact ⟨_, rfl⟩
  obtain ⟨f, hf⟩ := hthrow
  rw [hf] at hy
  rcases Attempt.yields_bind_iff.mp hy with ⟨e, hguard, rfl⟩ | ⟨h₁, proof, h₂, rfl, hguard, _⟩
  · rcases (Attempt.yields_guard hguard).of_throw with ⟨rfl, he⟩ | ⟨n, hs, rfl, he⟩
    · cases he
      exact .inl ⟨rfl, rfl⟩
    · cases he
      exact .inr ⟨n, hs, rfl, rfl⟩
  · rcases (Attempt.yields_guard hguard).of_throw with ⟨_, he⟩ | ⟨_, _, _, he⟩ <;> cases he

/-- Nothing was asked of a store. -/
def Unqueried (h : List Exchange) : Prop :=
  ∀ x ∈ h, ∀ p path data height prove, x.request ≠ .call p (.abciQuery path data height prove)

/-- A message stands at the height at which its chain was asked, which for a timeout is the height
of the block by which the packet was judged.  At the first two heights nothing is asked. -/
theorem relayPacket_evidence {res : Except RelayError RelayMessage}
    (hy : (relayPacket dest source r s).run.Yields h res) (hh : HeightsKept h) :
    (∀ m, res = .ok m → ∃ packet t, Judges dest source r h packet t ∧
      (3 ≤ r.proofHeight m.reason? →
        m.StandsAt
          ⟨(RelayRequest.prover dest source m.reason?).revision, r.proofHeight m.reason?⟩ ∧
        (m.reason? = some .height → packet.timeoutHeight ≤ m.proof.height) ∧
        (m.reason? = some .timestamp →
          .answered (.call dest (.blockTime m.proof.height.revisionHeight)) (.ok t) ∈ h ∧
          (-0x8000000000000000 ≤ t.unixNanos → packet.timeoutTimestamp < t.timestamp ∧
            (t.unixNanos < 0x8000000000000000 →
              (packet.timeoutTimestamp.toNat : Int) < t.unixNanos))))) ∧
    ∀ packet t reason, Judges dest source r h packet t → packet.fault? = none →
      packet.expiryAt dest.revision r.destHeight t.judgedNanos r.channelState = reason →
      r.proofHeight reason = 1 ∨ r.proofHeight reason = 2 →
      Unqueried h ∧ (res = .error unprovable ∨
        ∃ n, s = some n ∧ .stopped n .rest ∈ h ∧ res = .error .cancelled) := by
  rcases relayPacket_run hy with ⟨e, rfl, hunread⟩ | ⟨txs, packet, t, g, rfl, hfound, hsettle⟩
  · constructor
    · rintro m ⟨⟩
    · intro packet t reason hj
      exact absurd hj.read (hunread t)
  have hjudged : Judges dest source r (judging dest source r txs t ++ g) packet t :=
    ⟨⟨txs, by simp [judging], hfound⟩, by simp [judging]⟩
  constructor
  · rintro m rfl
    rcases hsettle with ⟨e, _, _, he⟩ | ⟨_, hy'⟩
    · cases he
    have hdecides := decides_of_settle hy'
    have hreason := hdecides.reason
    refine ⟨packet, t, hjudged, fun hheight => ?_⟩
    have hstands := hdecides.standsAt (hh.mono (by simp)) hheight
    refine ⟨hstands, fun hlate => ?_, fun hlate => ?_⟩
    · rw [hstands.1, hlate]
      exact Packet.timeoutHeight_le_of_expiryAt (hreason.symm.trans hlate)
    · have hpast := Packet.timeoutTimestamp_lt_of_expiryAt (hreason.symm.trans hlate)
      constructor
      · rw [hstands.1, hlate]
        exact hjudged.read
      · intro hlow
        refine ⟨BlockTime.lt_timestamp_iff.mpr hpast, fun hhigh => ?_⟩
        rwa [BlockTime.judgedNanos, if_pos ⟨hlow, hhigh⟩] at hpast
  · rintro packet' t' reason hj hnone hexpiry hlow
    have hg : ∀ x ∈ g, x.request.Settles := by
      rcases hsettle with ⟨e, _, rfl, _⟩ | ⟨_, hy'⟩
      · simp
      · exact hy'.asks (asks_settlePacket _)
    obtain ⟨rfl, rfl⟩ := hj.unique hg hfound
    rcases hsettle with ⟨e, he, _, _⟩ | ⟨_, hy'⟩
    · rw [hnone] at he
      cases he
    rw [hexpiry] at hy'
    rcases settlePacket_of_low hlow hy' with ⟨rfl, rfl⟩ | ⟨n, hs, rfl, rfl⟩
    · exact ⟨by simp [Unqueried, judging], .inl rfl⟩
    · exact ⟨by simp [Unqueried, judging], .inr ⟨n, hs, by simp, rfl⟩⟩

/-- A transfer that expired by its destination's block, which shows at the height asked that it was
not received. -/
theorem exists_timeout_transfer {txs : List TxResult} {packet : Packet} {t : BlockTime}
    {reason : Expiry}
    (hfound : Packet.findSent txs transferRequest.channel transferRequest.port
      transferRequest.sequence = some packet) (hfault : packet.fault? = none)
    (hexpiry : packet.expiryAt (transferEnd 0 "near").revision transferRequest.destHeight
      t.judgedNanos transferRequest.channelState = some reason) : ∃ h m,
    (relayPacket (transferEnd 0 "near") (transferEnd 1 "far") transferRequest none).run.Yields h
      (.ok m) ∧
    HeightsKept h ∧ m.reason? = some reason ∧
    Judges (transferEnd 0 "near") (transferEnd 1 "far") transferRequest h packet t := by
  let near := transferEnd 0 "near"
  let far := transferEnd 1 "far"
  let a : QueryAnswer := ⟨0, "", "", [], [], some [], 99⟩
  obtain ⟨g, m, htimes, hg⟩ : ∃ g m, TimesOut near far transferRequest packet reason g m ∧
      g = [.answered .rest (), .answered (.call near (.abciQuery StorePath.ibcStore
        (packet.evidenceKey .unordered).bytes 99 true)) (.ok a),
        .answered (.address far) (.ok "")] :=
    ⟨_, _, ⟨a, ⟨[], ⟨near.revision, 100⟩⟩, _, "", ⟨99, rfl, rfl, rfl, rfl⟩, rfl, rfl⟩, rfl⟩
  have hdecides : Decides near far transferRequest packet t.judgedNanos g m := by
    unfold Decides
    rw [hexpiry]
    exact htimes
  refine ⟨_, m, hdecides.yields hfound hfault, ?_, hdecides.reason.trans hexpiry,
    ⟨txs, by simp [judging], hfound⟩, by simp [judging]⟩
  intro key height b x hx hhands _
  rw [hg] at hx
  simp only [judging, List.cons_append, List.nil_append, List.mem_cons, List.not_mem_nil,
    or_false] at hx
  rcases hx with rfl | rfl | rfl | rfl | rfl | rfl | rfl <;> cases hhands
  rfl

/-- The destination's block lies in the year 2027, and the transfer is timed out at its height. -/
theorem relayPacket_evidence_past : ∃ h m,
    (relayPacket (transferEnd 0 "near") (transferEnd 1 "far") transferRequest none).run.Yields h
      (.ok m) ∧
    HeightsKept h ∧ m.reason? = some .timestamp ∧
    m.StandsAt ⟨(transferEnd 0 "near").revision, 100⟩ := by
  have hexpiry : transferPacket.expiryAt (transferEnd 0 "near").revision transferRequest.destHeight
      (BlockTime.judgedNanos ⟨1800000000, 0⟩) transferRequest.channelState = some .timestamp := by
    decide +kernel
  obtain ⟨h, m, hy, hh, hreason, _⟩ := exists_timeout_transfer findSent_transferTx rfl hexpiry
  obtain ⟨packet, _, _, hstands⟩ := (relayPacket_evidence hy hh).1 m rfl
  rw [hreason] at hstands
  exact ⟨h, m, hy, hh, hreason, (hstands (by decide)).1⟩

/-- A transfer that may be received until the year 2445. -/
def lateTransferTx : TxResult :=
  ⟨"", 10, 0, "", "", [], 0, 0, [⟨"send_packet",
    [("packet_sequence", "5"), ("packet_src_port", "transfer"), ("packet_src_channel", "channel-0"),
      ("packet_dst_port", "transfer"), ("packet_dst_channel", "channel-7"),
      ("packet_data_hex", "7b7d"), ("packet_timeout_timestamp", "15000000000000000000")]⟩]⟩

def lateTransferPacket : Packet := { transferPacket with timeoutTimestamp := 15000000000000000000 }

/-- The destination's block lies in the year 2286, and the transfer is timed out long before its
time, since later blocks than those of the year 2262 count as the latest of all. -/
theorem relayPacket_evidence_far_future : ∃ h m packet t,
    (relayPacket (transferEnd 0 "near") (transferEnd 1 "far") transferRequest none).run.Yields h
      (.ok m) ∧
    HeightsKept h ∧ Judges (transferEnd 0 "near") (transferEnd 1 "far") transferRequest h packet t ∧
    m.reason? = some .timestamp ∧ t.unixNanos < packet.timeoutTimestamp.toNat := by
  have hfound : Packet.findSent [lateTransferTx] transferRequest.channel transferRequest.port
      transferRequest.sequence = some lateTransferPacket := by
    decide +kernel
  have hexpiry : lateTransferPacket.expiryAt (transferEnd 0 "near").revision
      transferRequest.destHeight (BlockTime.judgedNanos ⟨10000000000, 0⟩)
      transferRequest.channelState = some .timestamp := by
    decide +kernel
  obtain ⟨h, m, hy, hh, hreason, hjudges⟩ := exists_timeout_transfer hfound rfl hexpiry
  exact ⟨h, m, lateTransferPacket, _, hy, hh, hjudges, hreason, by decide⟩

end PacketRelay
