import PacketRelay.Schema.Decode
import PacketRelay.Error.Basic

/-!
# Packed messages

A message packed with the name of its type, and the messages that are submitted to a chain.
-/

namespace PacketRelay

open Schema (Message MessageType)

structure Any where
  typeUrl : String
  value : Bytes
  deriving DecidableEq, Repr, Inhabited

namespace Any

def pack (t : MessageType) (m : Message) : Any := ⟨t.typeUrl, m.encode⟩

/-- The message of type `any`. -/
def toMessage (a : Any) : Message := Message.ofText 1 a.typeUrl ++ Message.ofBytes 2 a.value

def ofMessage (m : Message) : Any := ⟨m.text 1, m.bytes 2⟩

def unpack (t : MessageType) (a : Any) : Except RelayError Message :=
  if a.typeUrl ≠ t.typeUrl then
    .error (.decode ("expected " ++ t.typeUrl ++ ", found " ++ a.typeUrl))
  else match Schema.decode t a.value with
    | some m => .ok m
    | none => .error .malformedMessage

end Any

def decodeAnswer (t : MessageType) (b : Bytes) : Except RelayError Message :=
  match Schema.decode t b with
  | some m => .ok m
  | none => .error .malformedMessage

/-- A message to be submitted: packed already, or known by its type and its encoding only, which may
fail. -/
inductive Outgoing where
  | packed (a : Any)
  | plain (typeUrl : String) (body : Except RelayError Bytes)

namespace Outgoing

def typeUrl : Outgoing → String
  | .packed a => a.typeUrl
  | .plain typeUrl _ => typeUrl

def toAny : Outgoing → Except RelayError Any
  | .packed a => .ok a
  | .plain typeUrl body => body.map (⟨typeUrl, ·⟩)

/-- The message of type `t` that is submitted. -/
def unpack (t : MessageType) (o : Outgoing) : Except RelayError Message := do
  (← o.toAny).unpack t

end Outgoing

/-- How a packed message is shown in logs: its type and the size of its encoding. -/
def Any.summary (a : Any) : String :=
  "CosmosMessage \x7b type_url: " ++ Text.quoted a.typeUrl ++ ", len: "
    ++ Decimal.text a.value.length ++ " \x7d"

end PacketRelay
