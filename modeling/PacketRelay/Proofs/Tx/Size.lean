import PacketRelay.Proofs.Bytes
import PacketRelay.Proofs.Decimal.Numerals
import PacketRelay.Proofs.Schema.Length
import PacketRelay.Tx.Factory

/-!
# How long a transaction is

What is written about a text, a byte string or a nested message is at most a few bytes longer than
twice its length.  A fee has 39 digits at most, so the length of a transaction is bounded by those of
its body, its key, its denomination and its signature.
-/

namespace PacketRelay

namespace Schema.Message

theorem length_encode_ofBytes_le (field : Nat) (b : Bytes) :
    (ofBytes field b).encode.length ≤ 8 * field + 2 * b.length + 4 := by
  unfold ofBytes
  split
  · exact Nat.zero_le _
  · rw [encode_cons, List.length_append]
    exact Wire.length_writeEntry_bytes_le field b

theorem length_encode_ofText_le (field : Nat) (s : String) :
    (ofText field s).encode.length ≤ 8 * field + 2 * (Bytes.ofText s).length + 4 := by
  unfold ofText
  split
  · exact Nat.zero_le _
  · rw [encode_cons, List.length_append]
    exact Wire.length_writeEntry_bytes_le field (Bytes.ofText s)

theorem length_encode_ofMessage_le (field : Nat) (m : Message) :
    (ofMessage field m).encode.length ≤ 8 * field + 2 * m.encode.length + 4 := by
  rw [ofMessage, encode_cons, List.length_append]
  exact Wire.length_writeEntry_bytes_le field m.encode

theorem length_encode_ofNumber_le (field : Nat) (n : UInt64) :
    (ofNumber field n).encode.length ≤ 8 * field + 11 := by
  unfold ofNumber
  split
  · exact Nat.zero_le _
  · rw [encode_cons, List.length_append]
    exact Wire.length_writeEntry_word_le field n

end Schema.Message

open Schema.Message

theorem Decimal.Binary64.truncate_le (limit : Nat) (x : Float) : truncate limit x ≤ limit := by
  unfold truncate
  split
  · exact Nat.zero_le limit
  · split
    · exact Nat.le_refl limit
    · exact Nat.min_le_left _ _

theorem GasPrice.length_fee_amount_le (price : GasPrice) (gas : UInt64) :
    (Bytes.ofText (price.fee gas).amount).length ≤ 156 := by
  have hbound := Decimal.Binary64.truncate_le (1 <<< 128 - 1)
    (Decimal.Binary64.ofNat gas.toNat * price.amount).ceil
  have hdigits : (Decimal.digits (Decimal.Binary64.truncate (1 <<< 128 - 1)
      (Decimal.Binary64.ofNat gas.toNat * price.amount).ceil)).length ≤ 39 :=
    Decimal.length_digits_le (Nat.lt_of_le_of_lt hbound (by decide))
  have htext := Bytes.length_ofText_ofList_le (Decimal.digits (Decimal.Binary64.truncate
    (1 <<< 128 - 1) (Decimal.Binary64.ofNat gas.toNat * price.amount).ceil))
  exact Nat.le_trans htext (Nat.mul_le_mul_left 4 hdigits)

namespace TxFactory

theorem length_fee_le (f : TxFactory) :
    f.fee.toMessage.encode.length ≤ 4 * (Bytes.ofText f.gasPrice.denom).length + 727 := by
  have hamount := f.gasPrice.length_fee_amount_le f.gas
  have hdenom := length_encode_ofText_le 1 f.gasPrice.denom
  have htext := length_encode_ofText_le 2 (f.gasPrice.fee f.gas).amount
  have hcoin := length_encode_ofMessage_le 1 (f.gasPrice.fee f.gas).toMessage
  have hgas := length_encode_ofNumber_le 2 f.gas
  have hsplit : (f.gasPrice.fee f.gas).toMessage.encode.length =
      (ofText 1 f.gasPrice.denom).encode.length +
        (ofText 2 (f.gasPrice.fee f.gas).amount).encode.length := length_encode_append _ _
  have hfee : f.fee.toMessage.encode.length =
      (ofMessage 1 (f.gasPrice.fee f.gas).toMessage).encode.length +
        (ofNumber 2 f.gas).encode.length := length_encode_append _ _
  omega

theorem length_signerInfo_le (f : TxFactory) (publicKey : Bytes) :
    (f.signerInfo publicKey).encode.length ≤ 8 * publicKey.length + 403 := by
  have hkey := length_encode_ofBytes_le 1 publicKey
  have hurl := length_encode_ofText_le 1 (publicKeyAny publicKey).typeUrl
  have hvalue := length_encode_ofBytes_le 2 (publicKeyAny publicKey).value
  have hany := length_encode_ofMessage_le 1 (publicKeyAny publicKey).toMessage
  have hmode := length_encode_ofMessage_le 2 (modeInfo f.signMode)
  have hinfo := length_encode_ofMessage_le 1 (ofNumber 1 f.signMode.code)
  have hcode := length_encode_ofNumber_le 1 f.signMode.code
  have hsequence := length_encode_ofNumber_le 3 f.sequence
  have hname : (Bytes.ofText (publicKeyAny publicKey).typeUrl).length = 31 := by
    rw [Bytes.ofText_eq]
    rfl
  have hpacked : (publicKeyAny publicKey).toMessage.encode.length =
      (ofText 1 (publicKeyAny publicKey).typeUrl).encode.length +
        (ofBytes 2 (publicKeyAny publicKey).value).encode.length := length_encode_append _ _
  have hbody : (publicKeyAny publicKey).value.length = (ofBytes 1 publicKey).encode.length := rfl
  have hmodeInfo : (modeInfo f.signMode).encode.length =
      (ofMessage 1 (ofNumber 1 f.signMode.code)).encode.length := rfl
  have hsigner : (f.signerInfo publicKey).encode.length =
      (ofMessage 1 (publicKeyAny publicKey).toMessage).encode.length +
        (ofMessage 2 (modeInfo f.signMode)).encode.length + (ofNumber 3 f.sequence).encode.length := by
    rw [signerInfo, length_encode_append, length_encode_append]
  omega

end TxFactory

theorem UnsignedTx.length_withSignature_le (p : Provider) (f : TxFactory) (anys : List Any)
    (signature : Bytes) :
    ((p.unsignedTx f anys).withSignature signature).encode.length ≤
      2 * (f.body anys).encode.length + 32 * p.publicKey.length +
        16 * (Bytes.ofText f.gasPrice.denom).length + 2 * signature.length + 4644 := by
  have hsigner := f.length_signerInfo_le p.publicKey
  have hfee := f.length_fee_le
  have hinfo := length_encode_ofMessage_le 1 (f.signerInfo p.publicKey)
  have hpaid := length_encode_ofMessage_le 2 f.fee.toMessage
  have hauth : (f.authInfo p.publicKey).encode.length =
      (ofMessage 1 (f.signerInfo p.publicKey)).encode.length +
        (ofMessage 2 f.fee.toMessage).encode.length := length_encode_append _ _
  have hbody := length_encode_ofBytes_le 1 (f.body anys).encode
  have hauthorized := length_encode_ofBytes_le 2 (f.authInfo p.publicKey).encode
  have hsigned : (Schema.Message.encode [(3, .bytes signature)]).length ≤
      8 * 3 + 2 * signature.length + 4 := by
    rw [encode_cons, List.length_append]
    exact Wire.length_writeEntry_bytes_le 3 signature
  have htx : ((p.unsignedTx f anys).withSignature signature).encode.length =
      (ofBytes 1 (f.body anys).encode).encode.length +
        (ofBytes 2 (f.authInfo p.publicKey).encode).encode.length +
        (Schema.Message.encode [(3, .bytes signature)]).length := by
    rw [UnsignedTx.withSignature, length_encode_append, length_encode_append]
    rfl
  omega

end PacketRelay
