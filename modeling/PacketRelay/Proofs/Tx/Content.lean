import PacketRelay.Proofs.Schema.Decoding
import PacketRelay.Tx.Factory

/-!
# What a transaction decodes to

The bytes of a transaction decode to its body, its authorization and its signature, and these to the
messages and the memo, and to the signer and the fee.
-/

namespace PacketRelay

open Schema
open Schema.Message (ofNumber ofText ofBytes ofMessage ofMessages)

theorem Any.conforms (a : Any) (depth : Nat) : a.toMessage.Conforms depth .any := by
  refine Message.conforms_of_fills (fun proper => ?_) depth
  have hfill : Fills proper MessageType.any.slots (ofText 1 a.typeUrl ++ (ofBytes 2 a.value ++ [])) :=
    .cons (holds_ofText rfl _) (.cons (holds_ofBytes rfl _) .nil)
  rwa [List.append_nil] at hfill

theorem Coin.conforms (c : Coin) (depth : Nat) : c.toMessage.Conforms depth .coin := by
  refine Message.conforms_of_fills (fun proper => ?_) depth
  have hfill : Fills proper MessageType.coin.slots (ofText 1 c.denom ++ (ofText 2 c.amount ++ [])) :=
    .cons (holds_ofText rfl _) (.cons (holds_ofText rfl _) .nil)
  rwa [List.append_nil] at hfill

theorem Fee.conforms (f : Fee) (depth : Nat) : f.toMessage.Conforms (depth + 1) .fee := by
  have hfill : Fills (Message.Conforms depth) MessageType.fee.slots
      (ofMessages 1 (f.amount.map Coin.toMessage) ++ (ofNumber 2 f.gasLimit ++ ([] ++ ([] ++ [])))) := by
    refine .cons (holds_ofMessages rfl fun m hm => ?_) <| .cons (holds_ofNumber rfl rfl) <|
      .cons (.absent _) <| .cons (.absent _) .nil
    obtain ⟨c, _, rfl⟩ := List.mem_map.mp hm
    exact c.conforms depth
  rwa [List.append_nil, List.append_nil, List.append_nil] at hfill

namespace TxFactory

end TxFactory

/-- What a transaction of one signer says. -/
structure TxContent where
  messages : List Any
  memo : String
  publicKey : Bytes
  sequence : UInt64
  fees : List Coin
  gas : UInt64

namespace TxContent

variable (c : TxContent)

def body : Message :=
  ofMessages 1 (c.messages.map fun a => ofText 1 a.typeUrl ++ ofBytes 2 a.value) ++ ofText 2 c.memo

/-- The signer with its public key, its mode of signing, which is the direct one, and its
sequence. -/
def signer : Message :=
  ofMessage 1 (ofText 1 "/cosmos.crypto.secp256k1.PubKey" ++ ofBytes 2 (ofBytes 1 c.publicKey).encode)
    ++ ofMessage 2 (ofMessage 1 (ofNumber 1 1)) ++ ofNumber 3 c.sequence

def fee : Message :=
  ofMessages 1 (c.fees.map fun coin => ofText 1 coin.denom ++ ofText 2 coin.amount)
    ++ ofNumber 2 c.gas

end TxContent

/-- What a transaction with these settings says that may use this gas. -/
def TxFactory.content (f : TxFactory) (publicKey : Bytes) (anys : List Any) (gas : UInt64) :
    TxContent :=
  ⟨anys, f.memo, publicKey, f.sequence, [f.gasPrice.fee gas], gas⟩

theorem length_lt_of_sized_ofBytes {field : Nat} {b : Bytes} (hb : (ofBytes field b).Sized) :
    b.length < 1 <<< 64 := by
  by_cases hempty : b = []
  · rw [hempty]
    decide
  · exact hb (field, .bytes b) (by simp [ofBytes, hempty]) b rfl

end PacketRelay
