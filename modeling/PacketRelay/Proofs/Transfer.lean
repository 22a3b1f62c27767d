import PacketRelay.Proofs.Relay.Decision
import PacketRelay.Proofs.Schema.Fields
import PacketRelay.Proofs.Schema.Packing
import PacketRelay.Proofs.Tx.Content

/-!
# The timeout of a transfer

A transfer has the timeout timestamp of its packet, and its timeout height unless that is zero.  A
height at which a revision begins is also left out, although packets are judged by it.  If the packet
has no other timeout, the transfer never times out.
-/

namespace PacketRelay

open Schema (Message MessageType Fills)
open Schema.Message

/-- A revision begins at the height, and it is not zero. -/
def Height.BeginsRevision (height : Height) : Prop :=
  height.revisionNumber ≠ 0 ∧ height.revisionHeight = 0

theorem Height.BeginsRevision.ne_zero {height : Height} (hbegins : height.BeginsRevision) :
    height ≠ .zero := by
  rintro rfl
  exact hbegins.1 rfl

theorem Height.revisionHeight_eq_zero_iff {height : Height} :
    height.revisionHeight = 0 ↔ height.isZero = true ∨ height.BeginsRevision := by
  by_cases hnumber : height.revisionNumber = 0 <;> simp [isZero, BeginsRevision, hnumber]

theorem Packet.fault?_eq_missingTimeout_iff {packet : Packet} (hsequence : packet.sequence ≠ 0)
    (hdata : packet.data ≠ []) :
    packet.fault? = some .missingTimeout ↔
      packet.timeoutHeight.isZero = true ∧ packet.timeoutTimestamp = 0 := by
  rw [fault?, if_neg hsequence, if_neg hdata, Height.isZero_iff]
  split <;> simp [*]

section Content

/-- The field for the timeout height of a transfer. -/
def Packet.transferHeight (packet : Packet) : Message :=
  if packet.timeoutHeight.revisionHeight = 0 then []
  else ofMessage 6 packet.timeoutHeight.toMessage

/-- The message that asks for a transfer. -/
def transferMessage (sender receiver : String) (amount : Coin) (packet : Packet) : Message :=
  ofText 1 packet.sourcePort ++ ofText 2 packet.sourceChannel ++ ofMessage 3 amount.toMessage
    ++ ofText 4 sender ++ ofText 5 receiver ++ packet.transferHeight
    ++ ofNumber 7 packet.timeoutTimestamp

/-- The message asks for this transfer, over the channel of the packet and until its timeout
timestamp. -/
structure Transfers (m : Message) (sender receiver : String) (amount : Coin) (packet : Packet) :
    Prop where
  sourcePort : m.text 1 = packet.sourcePort
  sourceChannel : m.text 2 = packet.sourceChannel
  token : ∃ coin, m.message? 3 = some coin ∧ coin.text 1 = amount.denom ∧
    coin.text 2 = amount.amount
  sender : m.text 4 = sender
  receiver : m.text 5 = receiver
  timeoutTimestamp : m.number 7 = packet.timeoutTimestamp
  memo : m.text 8 = ""

variable {sender receiver : String} {amount : Coin} {packet : Packet}

theorem Coin.text_denom (c : Coin) : c.toMessage.text 1 = c.denom := by
  simp (disch := decide) only [Coin.toMessage, text, List.lookup_append, lookup_ofText_of_ne,
    Option.or_none]
  exact text_ofText 1 _

theorem Coin.text_amount (c : Coin) : c.toMessage.text 2 = c.amount := by
  simp (disch := decide) only [Coin.toMessage, text, List.lookup_append, lookup_ofText_of_ne,
    Option.none_or]
  exact text_ofText 2 _

theorem Packet.lookup_transferHeight_of_ne {n : Nat} (hne : n ≠ 6) :
    List.lookup n packet.transferHeight = none := by
  unfold transferHeight
  split
  · rfl
  · exact lookup_ofMessage_of_ne hne _

theorem transfers_transferMessage :
    Transfers (transferMessage sender receiver amount packet) sender receiver amount packet := by
  constructor <;>
    simp (disch := decide) only [transferMessage, number, text, message?, List.lookup_append,
      lookup_ofText_of_ne, lookup_ofNumber_of_ne, lookup_ofMessage_of_ne,
      Packet.lookup_transferHeight_of_ne, Option.or_none, Option.none_or]
  case sourcePort => exact text_ofText 1 _
  case sourceChannel => exact text_ofText 2 _
  case token => exact ⟨amount.toMessage, rfl, amount.text_denom, amount.text_amount⟩
  case sender => exact text_ofText 4 _
  case receiver => exact text_ofText 5 _
  case timeoutTimestamp => exact number_ofNumber 7 _

theorem message?_transferMessage :
    (transferMessage sender receiver amount packet).message? 6 =
      if packet.timeoutHeight.revisionHeight = 0 then none
      else some packet.timeoutHeight.toMessage := by
  simp (disch := decide) only [transferMessage, message?, List.lookup_append, lookup_ofText_of_ne,
    lookup_ofNumber_of_ne, lookup_ofMessage_of_ne, Option.or_none, Option.none_or]
  by_cases hheight : packet.timeoutHeight.revisionHeight = 0
  · rw [Packet.transferHeight, if_pos hheight, if_pos hheight]
    rfl
  · rw [Packet.transferHeight, if_neg hheight, if_neg hheight]
    rfl

theorem transferMessage_conforms (depth : Nat) :
    (transferMessage sender receiver amount packet).Conforms (depth + 1) .msgTransfer := by
  have hheight : (Schema.Slot.single ⟨6, "timeout_height", .message .height⟩).Holds
      (Message.Conforms depth) packet.transferHeight := by
    unfold Packet.transferHeight
    split
    · exact .absent _
    · exact Schema.holds_ofMessage rfl (Height.conforms _ _)
  have hfill : Fills (Message.Conforms depth) MessageType.msgTransfer.slots
      (ofText 1 packet.sourcePort ++ (ofText 2 packet.sourceChannel ++
        (ofMessage 3 amount.toMessage ++ (ofText 4 sender ++ (ofText 5 receiver ++
          (packet.transferHeight ++ (ofNumber 7 packet.timeoutTimestamp ++ ([] ++ [])))))))) :=
    .cons (Schema.holds_ofText rfl _) <| .cons (Schema.holds_ofText rfl _) <|
      .cons (Schema.holds_ofMessage rfl (amount.conforms _)) <|
      .cons (Schema.holds_ofText rfl _) <| .cons (Schema.holds_ofText rfl _) <|
      .cons hheight <| .cons (Schema.holds_ofNumber rfl rfl) <| .cons (.absent _) .nil
  simp only [List.append_nil, ← List.append_assoc] at hfill
  exact hfill

/-- A height at which a revision begins is absent, as the zero height is. -/
theorem message?_transferMessage_eq_none_iff :
    (transferMessage sender receiver amount packet).message? 6 = none ↔
      packet.timeoutHeight.isZero = true ∨ packet.timeoutHeight.BeginsRevision := by
  rw [message?_transferMessage, ← Height.revisionHeight_eq_zero_iff]
  split <;> simp [*]

theorem ofMessage?_transferMessage_eq_iff :
    Height.ofMessage? ((transferMessage sender receiver amount packet).message? 6) =
      packet.timeoutHeight ↔ ¬ packet.timeoutHeight.BeginsRevision := by
  rw [message?_transferMessage]
  split
  · next hheight =>
    have hread : Height.ofMessage? none = .zero := rfl
    rw [hread]
    obtain hzero | hbegins := Height.revisionHeight_eq_zero_iff.mp hheight
    · rw [Height.isZero_iff] at hzero
      exact iff_of_true hzero.symm fun hbegins => hbegins.ne_zero hzero
    · exact iff_of_false hbegins.ne_zero.symm (not_not_intro hbegins)
  · next hheight =>
    exact iff_of_true (Height.ofMessage?_toMessage _) fun hbegins => hheight hbegins.2

end Content

/-- A transfer is made once the address of its key is known.  It has the timeout timestamp of its
packet, and its timeout height except one at which a revision begins: then it has none.  So a
transfer has no timeout at all just when its packet would be refused for that, or when a height of
that kind is all the timeout that its packet has. -/
theorem Provider.transfer_carries_timeout (p : Provider) (receiver : String) (amount : Coin)
    (packet : Packet) :
    (∀ h r, (p.transfer receiver amount packet).run.Yields h r ↔
      ∃ answer, h = [.answered (.address p) answer] ∧ r = answer.map fun sender =>
        Any.pack .msgTransfer (transferMessage sender receiver amount packet)) ∧
    ∀ h msg, (p.transfer receiver amount packet).run.Yields h (.ok msg) →
      msg.value.length < 1 <<< 64 →
      ∃ m sender, h = [.answered (.address p) (.ok sender)] ∧
        msg.unpack .msgTransfer = .ok m ∧ Transfers m sender receiver amount packet ∧
        (Height.ofMessage? (m.message? 6) = packet.timeoutHeight ↔
          ¬ packet.timeoutHeight.BeginsRevision) ∧
        (m.message? 6 = none ↔
          packet.timeoutHeight.isZero = true ∨ packet.timeoutHeight.BeginsRevision) ∧
        ∀ latest chain state, packet.sequence ≠ 0 → packet.data ≠ [] →
          (m.message? 6 = none ∧ m.number 7 = 0 ↔
            packet.validate latest chain state = .error .missingTimeout ∨
              packet.timeoutHeight.BeginsRevision ∧ packet.timeoutTimestamp = 0) := by
  refine ⟨fun h r => yields_signedBy_answer_iff, ?_⟩
  intro h msg hy hsize
  obtain ⟨sender, rfl, rfl⟩ := yields_signedBy_iff.mp hy
  have htransfers : Transfers (transferMessage sender receiver amount packet) sender receiver
      amount packet := transfers_transferMessage
  refine ⟨transferMessage sender receiver amount packet, sender, rfl, ?_, htransfers,
    ofMessage?_transferMessage_eq_iff, message?_transferMessage_eq_none_iff, ?_⟩
  · exact Any.unpack_pack (Schema.decode_encode (transferMessage_conforms 99) hsize)
  · intro latest chain state hsequence hdata
    rw [message?_transferMessage_eq_none_iff, htransfers.timeoutTimestamp, or_and_right,
      Packet.validate_eq_error_iff rfl, Packet.fault?_eq_missingTimeout_iff hsequence hdata]

/-- A packet that expires at this height and at no time. -/
def expiringAt (height : Height) : Packet :=
  { transferPacket with timeoutHeight := height, timeoutTimestamp := 0 }

/-- A packet that expires when its destination enters a revision is delivered until then, and its
transfer never times out.  A height within the revision is kept. -/
theorem Provider.transfer_carries_timeout_revision : ∃ h msg m h' msg' m',
    ((transferEnd 0 "near").transfer "osmo1receiver" ⟨"uatom", "10"⟩
      (expiringAt ⟨1, 0⟩)).run.Yields h (.ok msg) ∧
    (expiringAt ⟨1, 0⟩).validate ⟨50, ⟨0, 0⟩⟩ "far" .opened = .ok () ∧
    msg.unpack .msgTransfer = .ok m ∧ m.message? 6 = none ∧ m.number 7 = 0 ∧
    ((transferEnd 0 "near").transfer "osmo1receiver" ⟨"uatom", "10"⟩
      (expiringAt ⟨1, 7⟩)).run.Yields h' (.ok msg') ∧
    msg'.unpack .msgTransfer = .ok m' ∧ Height.ofMessage? (m'.message? 6) = ⟨1, 7⟩ := by
  let near := transferEnd 0 "near"
  obtain ⟨hmade, hdecoded⟩ := transfer_carries_timeout near "osmo1receiver" ⟨"uatom", "10"⟩
    (expiringAt ⟨1, 0⟩)
  obtain ⟨hmade', hdecoded'⟩ := transfer_carries_timeout near "osmo1receiver" ⟨"uatom", "10"⟩
    (expiringAt ⟨1, 7⟩)
  have hy := (hmade _ _).mpr ⟨.ok "cosmos1sender", rfl, rfl⟩
  have hy' := (hmade' _ _).mpr ⟨.ok "cosmos1sender", rfl, rfl⟩
  obtain ⟨m, _, _, hm, _, _, _, hlost⟩ := hdecoded _ _ hy (by decide +kernel)
  obtain ⟨m', _, _, hm', _, hkept, _⟩ := hdecoded' _ _ hy' (by decide +kernel)
  have hjudged : (expiringAt ⟨1, 0⟩).validate ⟨50, ⟨0, 0⟩⟩ "far" .opened = .ok () := by
    decide +kernel
  obtain ⟨hnone, hzero⟩ := (hlost ⟨50, ⟨0, 0⟩⟩ "far" .opened (by decide) (by decide)).mpr
    (.inr ⟨⟨by decide, rfl⟩, rfl⟩)
  exact ⟨_, _, m, _, _, m', hy, hjudged, hm, hnone, hzero, hy', hm',
    hkept.mpr fun hbegins => absurd hbegins.2 (by decide)⟩

end PacketRelay
