import PacketRelay.Proofs.Schema.Encoding
import PacketRelay.Tx.Factory

/-!
# What a signed transaction determines

The bytes of a transaction determine its messages, its memo, its fees and the sequence that it was
signed with.
-/

namespace PacketRelay

open Schema (Message)
open Schema.Message (ofNumber ofText ofBytes ofMessage ofMessages payloadBytes)

namespace UnsignedTx

theorem entries_withSignature (u : UnsignedTx) (signature : Bytes) :
    payloadBytes (u.withSignature signature).entries 1 = u.body ∧
      payloadBytes (u.withSignature signature).entries 2 = u.authInfo := by
  by_cases hb : u.body = [] <;> by_cases ha : u.authInfo = [] <;>
    simp [withSignature, ofBytes, payloadBytes, hb, ha, Schema.Value.payload, List.lookup_cons]

theorem withSignature_encode_inj {u u' : UnsignedTx} {signature signature' : Bytes}
    (h : (u.withSignature signature).encode = (u'.withSignature signature').encode) :
    u.body = u'.body ∧ u.authInfo = u'.authInfo := by
  have he := Message.entries_eq_of_encode_eq h
  obtain ⟨hb, ha⟩ := u.entries_withSignature signature
  obtain ⟨hb', ha'⟩ := u'.entries_withSignature signature'
  exact ⟨by rw [← hb, ← hb', he], by rw [← ha, ← ha', he]⟩

end UnsignedTx

theorem Any.eq_of_encode_eq {a b : Any} (h : a.toMessage.encode = b.toMessage.encode) : a = b := by
  have parts (c : Any) : payloadBytes c.toMessage.entries 1 = Bytes.ofText c.typeUrl ∧
      payloadBytes c.toMessage.entries 2 = c.value := by
    by_cases ht : c.typeUrl = "" <;> by_cases hv : c.value = [] <;>
      simp [toMessage, ofText, ofBytes, payloadBytes, ht, hv, Schema.Value.payload,
        List.lookup_cons, Bytes.ofText_eq]
  have he := Message.entries_eq_of_encode_eq h
  have ht : a.typeUrl = b.typeUrl := by
    rw [← Bytes.ofText_inj, ← (parts a).1, ← (parts b).1, he]
  have hv : a.value = b.value := by rw [← (parts a).2, ← (parts b).2, he]
  cases a
  cases b
  simp_all

theorem Coin.eq_of_encode_eq {c d : Coin} (h : c.toMessage.encode = d.toMessage.encode) : c = d := by
  have parts (c : Coin) : payloadBytes c.toMessage.entries 1 = Bytes.ofText c.denom ∧
      payloadBytes c.toMessage.entries 2 = Bytes.ofText c.amount := by
    by_cases hd : c.denom = "" <;> by_cases ha : c.amount = "" <;>
      simp [toMessage, ofText, payloadBytes, hd, ha, Schema.Value.payload, List.lookup_cons,
        Bytes.ofText_eq]
  have he := Message.entries_eq_of_encode_eq h
  have hd : c.denom = d.denom := by
    rw [← Bytes.ofText_inj, ← (parts c).1, ← (parts d).1, he]
  have ha : c.amount = d.amount := by
    rw [← Bytes.ofText_inj, ← (parts c).2, ← (parts d).2, he]
  cases c
  cases d
  simp_all

namespace TxFactory

theorem entries_body (f : TxFactory) (msgs : List Any) :
    (f.body msgs).entries =
      (msgs.map fun a => (1, .bytes a.toMessage.encode)) ++ (ofText 2 f.memo).entries := by
  simp [body, ofMessages, Message.entries, Schema.Value.payload, Function.comp_def]

theorem messages_memo_eq_of_body_eq {f f' : TxFactory} {msgs msgs' : List Any}
    (h : (f.body msgs).encode = (f'.body msgs').encode) : msgs = msgs' ∧ f.memo = f'.memo := by
  have he := Message.entries_eq_of_encode_eq h
  rw [entries_body, entries_body] at he
  have hmemo (s : String) (e : Wire.Entry) (he : e ∈ (ofText 2 s).entries) : e.1 = 2 := by
    unfold ofText at he
    split at he <;> simp_all
  clear h
  induction msgs generalizing msgs' with
  | nil =>
      cases msgs' with
      | nil => exact ⟨rfl, Message.ofText_entries_inj (by simpa using he)⟩
      | cons b msgs' =>
          have hhead := hmemo f.memo (1, .bytes b.toMessage.encode) (by
            rw [List.map_nil, List.nil_append] at he
            simp [he])
          simp at hhead
  | cons a msgs ih =>
      cases msgs' with
      | nil =>
          have hhead := hmemo f'.memo (1, .bytes a.toMessage.encode) (by
            rw [List.map_nil, List.nil_append] at he
            simp [← he])
          simp at hhead
      | cons b msgs' =>
          simp only [List.map_cons, List.cons_append, List.cons.injEq, Prod.mk.injEq, true_and,
            Wire.Payload.bytes.injEq] at he
          obtain rfl := Any.eq_of_encode_eq he.1
          obtain ⟨rfl, hm⟩ := ih he.2
          exact ⟨rfl, hm⟩

section AuthInfo

variable {f f' : TxFactory} {k k' : Bytes}

/-- The authorization determines its two parts, the signer and the fee. -/
theorem parts_eq_of_authInfo_eq (h : (f.authInfo k).encode = (f'.authInfo k').encode) :
    (f.signerInfo k).encode = (f'.signerInfo k').encode ∧
      f.fee.toMessage.encode = f'.fee.toMessage.encode := by
  have hauth := Message.entries_eq_of_encode_eq h
  simpa [authInfo, ofMessages, ofMessage, Schema.Value.payload] using hauth

theorem publicKey_eq_of_authInfo_eq (h : (f.authInfo k).encode = (f'.authInfo k').encode) :
    k = k' := by
  have hsigner := Message.entries_eq_of_encode_eq (parts_eq_of_authInfo_eq h).1
  simp only [signerInfo, ofMessage, List.cons_append, List.nil_append, Message.entries_cons,
    Schema.Value.payload, List.cons.injEq, Prod.mk.injEq, Wire.Payload.bytes.injEq, true_and]
    at hsigner
  have hkey : publicKeyAny k = publicKeyAny k' := Any.eq_of_encode_eq hsigner.1
  exact Message.ofBytes_entries_inj (Message.entries_eq_of_encode_eq (congrArg Any.value hkey))

theorem sequence_eq_of_authInfo_eq (h : (f.authInfo k).encode = (f'.authInfo k').encode) :
    f.sequence = f'.sequence := by
  have hsigner := Message.entries_eq_of_encode_eq (parts_eq_of_authInfo_eq h).1
  simp only [signerInfo, ofMessage, List.cons_append, List.nil_append, Message.entries_cons,
    Schema.Value.payload, List.cons.injEq] at hsigner
  exact Message.ofNumber_entries_inj hsigner.2.2

theorem fees_gas_eq_of_authInfo_eq (h : (f.authInfo k).encode = (f'.authInfo k').encode) :
    f.fee.amount = f'.fee.amount ∧ f.gas = f'.gas := by
  have hfee := Message.entries_eq_of_encode_eq (parts_eq_of_authInfo_eq h).2
  simp only [Fee.toMessage, fee, ofMessages, List.map_cons, List.map_nil, List.cons_append,
    List.nil_append, Message.entries_cons, Schema.Value.payload, List.cons.injEq, Prod.mk.injEq,
    Wire.Payload.bytes.injEq, true_and] at hfee
  rw [fee, fee, Coin.eq_of_encode_eq hfee.1]
  exact ⟨rfl, Message.ofNumber_entries_inj hfee.2⟩

end AuthInfo

end TxFactory

/-- The transaction is one that was signed with this sequence. -/
def SignedWith (sequence : UInt64) (tx : Bytes) : Prop :=
  ∃ (p : Provider) (f : TxFactory) (msgs : List Any) (signature : Bytes),
    f.sequence = sequence ∧ tx = ((p.unsignedTx f msgs).withSignature signature).encode

theorem SignedWith.unique {m n : UInt64} {tx : Bytes} (hm : SignedWith m tx)
    (hn : SignedWith n tx) : m = n := by
  obtain ⟨p, f, msgs, signature, rfl, rfl⟩ := hm
  obtain ⟨p', f', msgs', signature', rfl, h⟩ := hn
  exact TxFactory.sequence_eq_of_authInfo_eq (UnsignedTx.withSignature_encode_inj h).2

/-- The transaction offers these fees. -/
def Pays (fees : List Coin) (tx : Bytes) : Prop :=
  ∃ (p : Provider) (f : TxFactory) (msgs : List Any) (signature : Bytes),
    f.fee.amount = fees ∧ tx = ((p.unsignedTx f msgs).withSignature signature).encode

theorem Pays.unique {fees fees' : List Coin} {tx : Bytes} (h : Pays fees tx)
    (h' : Pays fees' tx) : fees = fees' := by
  obtain ⟨p, f, msgs, signature, rfl, rfl⟩ := h
  obtain ⟨p', f', msgs', signature', rfl, h⟩ := h'
  exact (TxFactory.fees_gas_eq_of_authInfo_eq (UnsignedTx.withSignature_encode_inj h).2).1

/-- The transaction carries these messages, in order, and this memo. -/
def Carries (msgs : List Any) (memo : String) (tx : Bytes) : Prop :=
  ∃ (p : Provider) (f : TxFactory) (signature : Bytes),
    f.memo = memo ∧ tx = ((p.unsignedTx f msgs).withSignature signature).encode

end PacketRelay
