import PacketRelay.Any
import PacketRelay.Proofs.Schema.Length

/-!
# Packed messages are unpacked again

The messages that travel packed do not contain themselves, so they nest less deeply than the reader
follows.  Each is taken back from its packed form under its own name and refused under every other
one, and what was read from any bytes is written in a form that stays the same from then on.
-/

namespace PacketRelay

namespace Schema

/-- The types of the messages in a field. -/
def Kind.nested? : Kind → Option MessageType
  | .message t => some t
  | _ => none

namespace MessageType

/-- The types that are packed under their names. -/
def packable : List MessageType := [
  .height, .msgCreateClient, .msgUpdateClient, .msgUpgradeClient, .msgSubmitMisbehaviour,
  .merkleProof, .msgRecvPacket, .msgTimeout, .msgTimeoutOnClose, .msgAcknowledgement,
  .msgChannelOpenInit, .msgChannelOpenTry, .msgChannelOpenAck, .msgChannelOpenConfirm,
  .msgChannelCloseInit, .msgChannelCloseConfirm, .connectionEnd, .msgConnectionOpenInit,
  .msgConnectionOpenTry, .msgConnectionOpenAck, .msgConnectionOpenConfirm, .msgTransfer,
  .clientState, .consensusState, .header, .msgSubmitQueryResponse]

/-- Messages of the type nest no deeper than `depth`, whatever they hold. -/
def nestsWithin : (depth : Nat) → MessageType → Bool
  | 0, t => (t.slots.flatMap Slot.fields).all (·.kind.nested?.isNone)
  | depth + 1, t => (t.slots.flatMap Slot.fields).all (·.kind.nested?.all (nestsWithin depth))

theorem nestsWithin_of_packable {t : MessageType} (ht : t ∈ packable) : t.nestsWithin 6 = true := by
  revert t
  decide

theorem typeUrl_inj : ∀ t ∈ packable, ∀ t' ∈ packable, t.typeUrl = t'.typeUrl → t = t' := by
  decide

end MessageType

section Nesting

variable {P Q : MessageType → Message → Prop}

theorem Value.Conforms.mono {kind : Kind} {v : Value} (h : v.Conforms P kind)
    (hPQ : ∀ t, kind.nested? = some t → ∀ m, P t m → Q t m) : v.Conforms Q kind := by
  cases h with
  | number hnumeric hnormal => exact .number hnumeric hnormal
  | text s => exact .text s
  | bytes b => exact .bytes b
  | message hm => exact .message (hPQ _ rfl _ hm)

theorem Slot.Holds.mono {slot : Slot} {part : Message} (h : slot.Holds P part)
    (hPQ : ∀ f ∈ slot.fields, ∀ t, f.kind.nested? = some t → ∀ m, P t m → Q t m) :
    slot.Holds Q part := by
  cases h with
  | absent f => exact .absent f
  | present hv hdefault => exact .present (hv.mono (hPQ _ List.mem_cons_self)) hdefault
  | repeated hnumeric hvs =>
      exact .repeated hnumeric fun v hv => (hvs v hv).mono (hPQ _ List.mem_cons_self)
  | packed hnumeric hns => exact .packed hnumeric hns
  | undecided members => exact .undecided members
  | chosen hf hv => exact .chosen hf (hv.mono (hPQ _ hf))

theorem Fills.mono {slots : List Slot} {m : Message} (h : Fills P slots m)
    (hPQ : ∀ f ∈ slots.flatMap Slot.fields, ∀ t, f.kind.nested? = some t → ∀ m, P t m → Q t m) :
    Fills Q slots m := by
  induction h with
  | nil => exact .nil
  | cons hslot _ ih =>
      rw [List.flatMap_cons] at hPQ
      exact .cons (hslot.mono fun f hf => hPQ f (List.mem_append_left _ hf))
        (ih fun f hf => hPQ f (List.mem_append_right _ hf))

/-- What a message with this depth may hold. -/
def Message.Within : (depth : Nat) → MessageType → Message → Prop
  | 0, _, _ => False
  | depth + 1, t, m => m.Conforms depth t

theorem Message.conforms_iff {depth : Nat} {t : MessageType} {m : Message} :
    m.Conforms depth t ↔ Fills (Within depth) t.slots m := by
  cases depth with
  | zero => exact Iff.rfl
  | succ depth => exact Iff.rfl

/-- Messages of a type that does not nest deeply conform to it at every depth from there on. -/
theorem Message.Conforms.of_nestsWithin {depth actual limit : Nat} {t : MessageType} {m : Message}
    (hm : m.Conforms actual t) (ht : t.nestsWithin depth = true) (hle : depth ≤ limit) :
    m.Conforms limit t := by
  induction depth generalizing actual limit t m with
  | zero =>
      rw [conforms_iff] at hm ⊢
      refine hm.mono fun f hf t' ht' => ?_
      have hnone := List.all_eq_true.mp ht f hf
      rw [ht'] at hnone
      cases hnone
  | succ depth ih =>
      rw [conforms_iff] at hm ⊢
      refine hm.mono fun f hf t' ht' m' hm' => ?_
      have hnested := List.all_eq_true.mp ht f hf
      rw [ht'] at hnested
      obtain _ | actual := actual
      · exact hm'.elim
      · obtain _ | limit := limit
        · exact absurd hle (Nat.not_succ_le_zero depth)
        · exact ih hm' hnested (Nat.le_of_succ_le_succ hle)

/-- The message is a value of type `t`. -/
def Message.Is (t : MessageType) (m : Message) : Prop := ∃ depth, m.Conforms depth t

theorem Message.Is.conforms {t : MessageType} {m : Message} (hm : m.Is t)
    (ht : t ∈ MessageType.packable) : m.Conforms nestingLimit t := by
  obtain ⟨depth, hm⟩ := hm
  exact hm.of_nestsWithin (MessageType.nestsWithin_of_packable ht) (by decide)

end Nesting

end Schema

open Schema (Message MessageType)

theorem Any.unpack_of_ne {t : MessageType} {a : Any} (hne : a.typeUrl ≠ t.typeUrl) :
    a.unpack t = .error (.decode ("expected " ++ t.typeUrl ++ ", found " ++ a.typeUrl)) := by
  rw [unpack, if_pos hne]

theorem Any.unpack_pack {t : MessageType} {m : Message} (h : Schema.decode t m.encode = some m) :
    (pack t m).unpack t = .ok m := by
  rw [unpack, if_neg (by simp [pack])]
  simp only [pack, h]

/-- A message of a packed type is taken back from its packed form, and only under its own name.  A
message that was decoded from any bytes is such a message, so that its encoding does not change
when it is decoded and encoded again. -/
theorem packing_round_trip {t : MessageType} (ht : t ∈ MessageType.packable) :
    (∀ m : Message, m.Is t → m.encode.length < 1 <<< 64 →
      (Outgoing.packed (.pack t m)).unpack t = .ok m ∧
      ∀ t' ∈ MessageType.packable, t' ≠ t → (Outgoing.packed (.pack t m)).unpack t' =
        .error (.decode ("expected " ++ t'.typeUrl ++ ", found " ++ t.typeUrl))) ∧
    (∀ a : Any, a.value.length < 1 <<< 63 → ∀ m, Schema.decode t a.value = some m →
      m.Is t ∧ (Any.pack t m).unpack t = .ok m ∧
      ((Any.pack t m).unpack t).map (Any.pack t) = .ok (Any.pack t m)) := by
  constructor
  · intro m hm hsize
    refine ⟨Any.unpack_pack (Schema.decode_encode (hm.conforms ht) hsize), fun t' ht' hne => ?_⟩
    exact Any.unpack_of_ne fun heq => hne (MessageType.typeUrl_inj t ht t' ht' heq).symm
  · intro a hsize m hm
    have hconforms := Schema.conforms_of_decode hm
    have hlen := Schema.length_encode_of_decode hm
    have hsize : m.encode.length < 1 <<< 64 := by
      have hdouble : (1 <<< 64 : Nat) = 2 * (1 <<< 63) := rfl
      omega
    have hunpack := Any.unpack_pack (Schema.decode_encode hconforms hsize)
    exact ⟨⟨_, hconforms⟩, hunpack, by rw [hunpack]; rfl⟩

/-- A proof with one compressed entry, whose path has a negative number, and an empty leaf. -/
def compressedProof : Message :=
  [(1, .message [(4, .message [(1, .message [(1, .message
    [(3, .message []), (4, .numbers [2, Schema.word (-1)])])])])])]

/-- The same proof as another writer may encode it: numbers one by one, the negative one in 32 bits,
and the leaf behind them. -/
def foreignProof : Bytes :=
  [10, 16, 34, 14, 10, 12, 10, 10, 32, 2, 32, 255, 255, 255, 255, 15, 26, 0]

theorem compressedProof_round_trip :
    (Outgoing.packed (.pack .merkleProof compressedProof)).unpack .merkleProof =
      .ok compressedProof ∧
    (Outgoing.packed (.pack .merkleProof compressedProof)).unpack .height =
      .error (.decode ("expected " ++ MessageType.typeUrl .height ++ ", found " ++
        MessageType.typeUrl .merkleProof)) ∧
    Schema.decode .merkleProof foreignProof = some compressedProof ∧
    ((Any.pack .merkleProof compressedProof).unpack .merkleProof).map (Any.pack .merkleProof) =
      .ok (Any.pack .merkleProof compressedProof) := by
  have hread : Schema.decode .merkleProof foreignProof = some compressedProof := rfl
  obtain ⟨hvalues, hbytes⟩ := packing_round_trip (t := .merkleProof) (by decide)
  obtain ⟨his, _, hsame⟩ := hbytes ⟨"", foreignProof⟩ (by decide) compressedProof hread
  have hlen := Schema.length_encode_of_decode hread
  obtain ⟨hown, hother⟩ := hvalues compressedProof his (Nat.lt_of_le_of_lt hlen (by decide))
  exact ⟨hown, hother .height (by decide) (by decide), hread, hsame⟩

end PacketRelay
