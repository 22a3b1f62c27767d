import PacketRelay.Account
import PacketRelay.Proofs.Query.Assembly
import PacketRelay.Proofs.Tx.Content

/-!
# What the answer to an account query shows

An answer packs the account under the name of its type.  A base account is taken from it with the
number and the sequence that it has; an account of another type is not a base account.
-/

namespace PacketRelay.Provider

open Schema (Message MessageType Slot Fills)
open Schema.Message

/-- The account of an answer is the base account that is packed in it. -/
theorem accountOf_ok_iff {address : String} {value : Bytes} {account : Message} :
    accountOf address value = .ok account ↔
      ∃ response packed, Schema.decode .queryAccountResponse value = some response ∧
        response.message? 1 = some packed ∧
        packed.text 1 = "/cosmos.auth.v1beta1.BaseAccount" ∧
        Schema.decode .baseAccount (packed.bytes 2) = some account := by
  unfold accountOf
  simp only [bind_eq_ok_iff, decodeAnswer_ok_iff]
  refine exists_congr fun response => ?_
  cases response.message? 1 with
  | none => exact iff_of_false nofun nofun
  | some packed =>
      have hname : MessageType.baseAccount.typeUrl = "/cosmos.auth.v1beta1.BaseAccount" := rfl
      by_cases htype : packed.text 1 = "/cosmos.auth.v1beta1.BaseAccount" <;>
        simp [Any.ofMessage, hname, htype, decodeAnswer_ok_iff, throw, throwThe,
          MonadExceptOf.throw, Bind.bind, Except.bind]

/-- What a chain holds for an address. -/
def baseAccount (address : String) (publicKey : Option Any) (number sequence : UInt64) : Message :=
  ofText 1 address ++ (ofMessage? 2 (publicKey.map Any.toMessage) ++
    (ofNumber 3 number ++ ofNumber 4 sequence))

/-- The value of the answer that shows an account. -/
def accountAnswer (account : Message) : Bytes :=
  (ofMessage 1 (ofText 1 "/cosmos.auth.v1beta1.BaseAccount" ++ ofBytes 2 account.encode)).encode

section BaseAccount

variable (address : String) (publicKey : Option Any) (number sequence : UInt64)

theorem baseAccount_conforms (depth : Nat) :
    (baseAccount address publicKey number sequence).Conforms (depth + 1) .baseAccount := by
  have hkey : (Slot.single ⟨2, "pub_key", .message .any⟩).Holds (Message.Conforms depth)
      (ofMessage? 2 (publicKey.map Any.toMessage)) := by
    cases publicKey with
    | none => exact .absent _
    | some key => exact .present (.message (key.conforms depth)) rfl
  have hfill : Fills (Message.Conforms depth) MessageType.baseAccount.slots
      (ofText 1 address ++ (ofMessage? 2 (publicKey.map Any.toMessage) ++
        (ofNumber 3 number ++ (ofNumber 4 sequence ++ [])))) :=
    .cons (Schema.holds_ofText rfl _) <| .cons hkey <| .cons (Schema.holds_ofNumber rfl rfl) <|
      .cons (Schema.holds_ofNumber rfl rfl) .nil
  rwa [List.append_nil] at hfill

theorem baseAccount_number : (baseAccount address publicKey number sequence).number 3 = number := by
  rw [baseAccount, number_append (lookup_ofText_of_ne (by decide) _),
    number_append (lookup_ofMessage?_of_ne (by decide) _),
    number_append_left (lookup_ofNumber_of_ne (by decide) _), number_ofNumber]

theorem baseAccount_sequence :
    (baseAccount address publicKey number sequence).number 4 = sequence := by
  rw [baseAccount, number_append (lookup_ofText_of_ne (by decide) _),
    number_append (lookup_ofMessage?_of_ne (by decide) _),
    number_append (lookup_ofNumber_of_ne (by decide) _), number_ofNumber]

end BaseAccount

/-- The account that an answer packs is the account that the answer shows. -/
theorem accountOf_accountAnswer {account : Message}
    (haccount : account.Conforms Schema.nestingLimit .baseAccount)
    (hsize : (accountAnswer account).length < 1 <<< 64) (address : String) :
    accountOf address (accountAnswer account) = .ok account := by
  let packed : Any := ⟨"/cosmos.auth.v1beta1.BaseAccount", account.encode⟩
  have hresponse : (ofMessage 1 packed.toMessage).Conforms Schema.nestingLimit
      .queryAccountResponse := by
    have hfill : Fills (Message.Conforms 99) MessageType.queryAccountResponse.slots
        (ofMessage 1 packed.toMessage ++ []) :=
      .cons (Schema.holds_ofMessage rfl (packed.conforms 99)) .nil
    rwa [List.append_nil] at hfill
  have hpacked : packed.toMessage.encode.length < 1 <<< 64 :=
    Schema.Message.sized_of_length hsize (1, .message packed.toMessage) List.mem_cons_self _ rfl
  have hvalue := length_lt_of_sized_ofBytes (Schema.Message.sized_of_length hpacked).right
  refine accountOf_ok_iff.mpr ⟨_, packed.toMessage, Schema.decode_encode hresponse hsize, rfl, ?_, ?_⟩
  · rw [Any.toMessage, text_append_left (lookup_ofBytes_of_ne (by decide) _), text_ofText]
  · rw [Any.toMessage, bytes_append (lookup_ofText_of_ne (by decide) _), bytes_ofBytes]
    exact Schema.decode_encode haccount hvalue

theorem accountOf_baseAccount {holder : String} {publicKey : Option Any} {number sequence : UInt64}
    (hsize : (accountAnswer (baseAccount holder publicKey number sequence)).length < 1 <<< 64)
    (address : String) :
    accountOf address (accountAnswer (baseAccount holder publicKey number sequence)) =
      .ok (baseAccount holder publicKey number sequence) :=
  accountOf_accountAnswer (baseAccount_conforms holder publicKey number sequence 99) hsize address

end PacketRelay.Provider
