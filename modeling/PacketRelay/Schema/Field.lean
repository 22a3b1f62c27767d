import PacketRelay.Schema.MessageType

/-!
# Fields of messages

A message type is a list of slots.  A slot holds one field at most once, one field any number of
times, or at most one of several fields.
-/

namespace PacketRelay.Schema

inductive Kind where
  | uint64
  | int64
  | uint32
  | int32
  | enumeration
  | bool
  | text
  | bytes
  | message (t : MessageType)
  deriving DecidableEq, Repr

structure Field where
  number : Nat
  name : String
  kind : Kind
  deriving DecidableEq, Repr

inductive Slot where
  /-- At most one value; a number, text or byte string is absent when it is zero or empty. -/
  | single (field : Field)
  /-- Any number of values in order. -/
  | repeated (field : Field)
  /-- At most one of the fields, present even when its value is zero or empty. -/
  | choice (members : List Field)
  deriving DecidableEq, Repr

def Slot.fields : Slot → List Field
  | .single f => [f]
  | .repeated f => [f]
  | .choice members => members

def Slot.numbers (s : Slot) : List Nat := s.fields.map Field.number

end PacketRelay.Schema
