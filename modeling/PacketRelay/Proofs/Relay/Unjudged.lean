import PacketRelay.Proofs.Relay.Acknowledgement

/-!
# Acknowledgements of packets that nobody judges

A packet to be delivered is judged, and refused if it breaks the rules that every packet obeys.  A
packet to be acknowledged is taken as the event recorded it.  An event may leave out everything but
the sequence, and so the message can carry a packet that breaks the rules, or no acknowledgement.
-/

namespace PacketRelay

open Program
open Schema (Message)
open Schema.Message

/-- The rules that every packet obeys. -/
structure Packet.ObeysRules (p : Packet) : Prop where
  sequence : p.sequence ≠ 0
  data : p.data ≠ []
  timeout : p.timeoutHeight ≠ .zero ∨ p.timeoutTimestamp ≠ 0

theorem Packet.fault?_eq_none_iff {p : Packet} : p.fault? = none ↔ p.ObeysRules := by
  unfold fault?
  constructor
  · intro hnone
    split at hnone
    · cases hnone
    · next hsequence =>
      split at hnone
      · cases hnone
      · next hdata =>
        split at hnone
        · cases hnone
        · next htimeout => exact ⟨hsequence, hdata, Decidable.not_and_iff_or_not.mp htimeout⟩
  · rintro ⟨hsequence, hdata, htimeout⟩
    rw [if_neg hsequence, if_neg hdata, if_neg (Decidable.not_and_iff_or_not.mpr htimeout)]

/-- The message carries a packet that obeys the rules, and an acknowledgement. -/
structure CarriesProper (fields : Message) : Prop where
  packet : ∃ inner, fields.message? 1 = some inner ∧ inner.number 1 ≠ 0 ∧ inner.bytes 6 ≠ [] ∧
    (Height.ofMessage? (inner.message? 7) ≠ .zero ∨ inner.number 8 ≠ 0)
  ack : fields.bytes 2 ≠ []

/-- What a message acknowledges is as proper as the packet that it was made from. -/
theorem Acknowledges.carriesProper_iff {fields : Message} {packet : Packet} {proof : PacketProof}
    {signer : String} (hacks : Acknowledges fields packet proof signer) :
    CarriesProper fields ↔ packet.ObeysRules ∧ packet.ack ≠ [] := by
  obtain ⟨inner, hinner, hstands⟩ := hacks.packetField
  constructor
  · rintro ⟨⟨inner', hinner', hsequence, hdata, htimeout⟩, hack⟩
    obtain rfl := Option.some.inj (hinner.symm.trans hinner')
    rw [hstands.sequence] at hsequence
    rw [hstands.data] at hdata
    rw [hstands.timeoutHeight, hstands.timeoutTimestamp] at htimeout
    exact ⟨⟨hsequence, hdata, htimeout⟩, hacks.ackField ▸ hack⟩
  · rintro ⟨⟨hsequence, hdata, htimeout⟩, hack⟩
    refine ⟨⟨inner, hinner, ?_, ?_, ?_⟩, hacks.ackField ▸ hack⟩
    · rwa [hstands.sequence]
    · rwa [hstands.data]
    · rwa [hstands.timeoutHeight, hstands.timeoutTimestamp]

section Relaying

variable {source dest : Provider} {s : Signal}

/-- The message was made from what the destination recorded first among these transactions, and is as
proper as that record. -/
structure AckMadeFrom (txs : List TxResult) (packet : Packet) (dest : Provider) (sequence : UInt64)
    (channel port : String) (h : List Exchange) (msg : Any) : Prop where
  searched : .answered (.call dest (.txSearch (Provider.packetSearch "write_acknowledgement" "dst"
    channel port sequence))) (.ok txs) ∈ h
  recorded : Packet.FirstRecorded "write_acknowledgement"
    (Packet.ReceivedWith channel port sequence) txs packet
  proper : ∃ fields, msg = .pack .msgAcknowledgement fields ∧
    (CarriesProper fields ↔ packet.ObeysRules ∧ packet.ack ≠ [])

theorem AckEvidence.Supports.madeFrom {ev : AckEvidence} {destHeight sequence : UInt64}
    {channel port : String} {h : List Exchange} {msg : Any}
    (hev : ev.Supports source dest destHeight sequence channel port h msg) :
    AckMadeFrom ev.txs ev.packet dest sequence channel port h msg where
  searched := by simp [hev.history, Provider.asked, Provider.searched]
  recorded := hev.recorded
  proper := ⟨_, hev.message, acknowledges_acknowledgementMessage.carriesProper_iff⟩

/-- Whatever an event recorded, a destination that proves its entry has it acknowledged. -/
theorem exists_yields_relayAcknowledgement {destHeight sequence : UInt64} {channel port : String}
    {txs : List TxResult} {packet : Packet}
    (hfirst : Packet.FirstRecorded "write_acknowledgement"
      (Packet.ReceivedWith channel port sequence) txs packet)
    (hone : destHeight ≠ 1) (htwo : destHeight ≠ 2) (source dest : Provider) (s : Signal) :
    ∃ h msg, (relayAcknowledgement source dest destHeight sequence channel port s).run.Yields h
        (.ok msg) ∧ AckMadeFrom txs packet dest sequence channel port h msg := by
  obtain ⟨queryHeight, hquery⟩ : ∃ q : UInt64, q.toNat = destHeight.toNat - 1 :=
    ⟨.ofNat (destHeight.toNat - 1), UInt64.toNat_ofNat_of_lt'
      (Nat.lt_of_le_of_lt (Nat.sub_le _ 1) destHeight.toNat_lt)⟩
  let proof : PacketProof := ⟨(ofMessages 1 [ofMessage 1 []]).encode, ⟨dest.revision, 100⟩⟩
  let ev : AckEvidence :=
    ⟨txs, packet, queryHeight, operationAnswer [1] [0x0a, 0x00], proof, "cosmos1"⟩
  have hev : ev.Supports source dest destHeight sequence channel port _ _ := {
    recorded := hfirst
    below := ⟨hone, htwo, hquery⟩
    accepted := rfl
    stored := by simp [ev, operationAnswer]
    vouched := ⟨_, _, rfl, holdProofs_operation Provider.decode_existenceProof, rfl⟩
    history := rfl
    message := rfl }
  exact ⟨_, _, yields_relayAcknowledgement_ok_iff.mpr ⟨ev, hev⟩, hev.madeFrom⟩

/-- A packet to be delivered is judged, and one that breaks the rules is refused. -/
theorem Judges.refuses {r : RelayRequest} {h : List Exchange}
    {res : Except RelayError RelayMessage} {packet : Packet} {t : BlockTime}
    (hj : Judges dest source r h packet t) (hy : (relayPacket dest source r s).run.Yields h res) :
    (∀ e, packet.fault? = some e → res = .error (.packet e)) ∧
      ∀ m, res = .ok m → packet.ObeysRules := by
  obtain ⟨e, _, hunread⟩ | ⟨txs, packet', t', g, rfl, hfound, hsettle⟩ := relayPacket_run hy
  · exact absurd hj.read (hunread t)
  have hg : ∀ x ∈ g, x.request.Settles := by
    obtain ⟨e, _, rfl, _⟩ | ⟨_, hy'⟩ := hsettle
    · simp
    · exact hy'.asks (asks_settlePacket _)
  obtain ⟨rfl, rfl⟩ := hj.unique hg hfound
  obtain ⟨e, hfault, _, rfl⟩ | ⟨hnone, _⟩ := hsettle
  · refine ⟨fun e' he' => ?_, nofun⟩
    rw [Option.some.inj (hfault.symm.trans he')]
  · exact ⟨fun e he => absurd (hnone.symm.trans he) nofun,
      fun _ _ => Packet.fault?_eq_none_iff.mp hnone⟩

/-- What is acknowledged is not judged.  The message is as proper as the record that it was made
from, and there is one for every record.  The same packet is refused where it is to be delivered. -/
theorem relayAcknowledgement_unjudged (source dest : Provider) (s : Signal)
    (destHeight sequence : UInt64) (channel port : String) :
    (∀ h msg, (relayAcknowledgement source dest destHeight sequence channel port s).run.Yields h
        (.ok msg) →
      ∃ txs packet, AckMadeFrom txs packet dest sequence channel port h msg) ∧
    (∀ txs packet, Packet.FirstRecorded "write_acknowledgement"
        (Packet.ReceivedWith channel port sequence) txs packet →
      destHeight ≠ 1 → destHeight ≠ 2 →
      ∃ h msg, (relayAcknowledgement source dest destHeight sequence channel port s).run.Yields h
          (.ok msg) ∧ AckMadeFrom txs packet dest sequence channel port h msg) ∧
    (∀ r h res packet t, (relayPacket dest source r s).run.Yields h res →
      Judges dest source r h packet t →
      (∀ e, packet.fault? = some e → res = .error (.packet e)) ∧
        ∀ m, res = .ok m → packet.ObeysRules) := by
  refine ⟨fun h msg hy => ?_, fun txs packet hfirst hone htwo =>
    exists_yields_relayAcknowledgement hfirst hone htwo source dest s,
    fun r h res packet t hy hj => hj.refuses hy⟩
  obtain ⟨ev, hev⟩ := yields_relayAcknowledgement_ok_iff.mp hy
  exact ⟨ev.txs, ev.packet, hev.madeFrom⟩

/-- The events of one packet, which record nothing but its number and its ends. -/
def bareTx : TxResult :=
  let ends := [("packet_sequence", "7"), ("packet_src_port", "transfer"),
    ("packet_src_channel", "channel-0"), ("packet_dst_port", "transfer"),
    ("packet_dst_channel", "channel-1")]
  ⟨"AB", 12, 0, "", "", [], 0, 0, [⟨"send_packet", ends⟩, ⟨"write_acknowledgement", ends⟩]⟩

def barePacket : Packet :=
  ⟨12, 7, "transfer", "channel-0", "transfer", "channel-1", [], .zero, 0, []⟩

theorem firstRecorded_bareTx : Packet.FirstRecorded "write_acknowledgement"
    (Packet.ReceivedWith "channel-1" "transfer" 7) [bareTx] barePacket := by
  rw [← Packet.find?_recorded_eq_some_iff, ← Packet.findReceived_eq]
  decide +kernel

theorem findSent_bareTx :
    Packet.findSent [bareTx] "channel-0" "transfer" 7 = some barePacket := by
  decide +kernel

def bareRequest : RelayRequest := ⟨50, 100, 7, "channel-0", "transfer", .unordered, .opened⟩

/-- A packet without data and timeouts that has no acknowledgement is acknowledged.  It is refused
where it is to be delivered. -/
theorem relayAcknowledgement_unjudged_bareTx :
    (∃ h fields, (relayAcknowledgement (transferEnd 0 "near") (transferEnd 1 "far-3") 100 7
        "channel-1" "transfer" none).run.Yields h (.ok (.pack .msgAcknowledgement fields)) ∧
      ¬ CarriesProper fields) ∧
    ∃ h res, (relayPacket (transferEnd 1 "far-3") (transferEnd 0 "near") bareRequest none).run.Yields
        h res ∧
      Judges (transferEnd 1 "far-3") (transferEnd 0 "near") bareRequest h barePacket ⟨0, 0⟩ ∧
      res = .error (.packet .emptyData) := by
  obtain ⟨_, hmade, hjudged⟩ := relayAcknowledgement_unjudged (transferEnd 0 "near")
    (transferEnd 1 "far-3") none 100 7 "channel-1" "transfer"
  constructor
  · obtain ⟨h, _, hy, hmadeFrom⟩ := hmade [bareTx] barePacket firstRecorded_bareTx (by decide)
      (by decide)
    obtain ⟨fields, rfl, hproper⟩ := hmadeFrom.proper
    exact ⟨h, fields, hy, fun hcarries => (hproper.mp hcarries).1.data rfl⟩
  · have hy : (relayPacket (transferEnd 1 "far-3") (transferEnd 0 "near") bareRequest none).run.Yields
        (judging (transferEnd 1 "far-3") (transferEnd 0 "near") bareRequest [bareTx] ⟨0, 0⟩ ++ [])
        (.error (.packet .emptyData)) :=
      yields_relayPacket_of_found findSent_bareTx (Attempt.yields_throw_iff.mpr ⟨rfl, rfl⟩)
    have hj : Judges (transferEnd 1 "far-3") (transferEnd 0 "near") bareRequest
        (judging (transferEnd 1 "far-3") (transferEnd 0 "near") bareRequest [bareTx] ⟨0, 0⟩ ++ [])
        barePacket ⟨0, 0⟩ :=
      ⟨⟨[bareTx], by simp [judging], findSent_bareTx⟩, by simp [judging]⟩
    exact ⟨_, _, hy, hj, (hjudged _ _ _ _ _ hy hj).1 .emptyData rfl⟩

end Relaying

end PacketRelay
