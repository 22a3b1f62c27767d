import PacketRelay.Schema.Slots
import PacketRelay.Wire.Entry

/-!
# Message values and their encoding

A message is the list of its present fields in the order of their numbers.  A number, text or byte
string that is zero or empty is not listed, unless its slot is a choice; a repeated message, text or
byte string is listed once for each element, and repeated numbers are listed together.
-/

namespace PacketRelay.Schema

inductive Value where
  | number (n : UInt64)
  /-- Repeated numbers, of which there is at least one. -/
  | numbers (ns : List UInt64)
  | text (s : String)
  | bytes (b : Bytes)
  | message (fields : List (Nat × Value))
  deriving Repr

/-- The present fields with their numbers. -/
abbrev Message := List (Nat × Value)

mutual

/-- The payload of a value; nested messages are encoded first. -/
def Value.payload : Value → Wire.Payload
  | .number n => .word n
  | .numbers ns => .bytes (ns.flatMap fun n => Wire.varint n.toNat)
  | .text s => .bytes (Bytes.ofText s)
  | .bytes b => .bytes b
  | .message fields => .bytes (Message.encode fields)

def Message.encode : Message → Bytes
  | [] => []
  | (number, v) :: rest => Wire.writeEntry (number, v.payload) ++ Message.encode rest

end

namespace Message

/-- The number in a field, zero when it is absent. -/
def number (m : Message) (field : Nat) : UInt64 :=
  match m.lookup field with
  | some (.number n) => n
  | _ => 0

/-- The text in a field, empty when it is absent. -/
def text (m : Message) (field : Nat) : String :=
  match m.lookup field with
  | some (.text s) => s
  | _ => ""

/-- The byte string in a field, empty when it is absent. -/
def bytes (m : Message) (field : Nat) : Bytes :=
  match m.lookup field with
  | some (.bytes b) => b
  | _ => []

def message? (m : Message) (field : Nat) : Option Message :=
  match m.lookup field with
  | some (.message fields) => some fields
  | _ => none

def messages (m : Message) (field : Nat) : List Message :=
  m.filterMap fun
    | (n, .message fields) => if n = field then some fields else none
    | _ => none

/-- A message with one number, unless it is zero. -/
def ofNumber (field : Nat) (n : UInt64) : Message := if n = 0 then [] else [(field, .number n)]

/-- A message with one text, unless it is empty. -/
def ofText (field : Nat) (s : String) : Message := if s = "" then [] else [(field, .text s)]

/-- A message with one byte string, unless it is empty. -/
def ofBytes (field : Nat) (b : Bytes) : Message := if b = [] then [] else [(field, .bytes b)]

/-- A message with one truth value, unless it is false. -/
def ofBool (field : Nat) (b : Bool) : Message := if b then [(field, .number 1)] else []

/-- A message with one nested message, which may be empty. -/
def ofMessage (field : Nat) (m : Message) : Message := [(field, .message m)]

/-- A message with a nested message if there is one. -/
def ofMessage? (field : Nat) : Option Message → Message
  | none => []
  | some m => ofMessage field m

def ofMessages (field : Nat) (ms : List Message) : Message := ms.map fun m => (field, .message m)

def ofTexts (field : Nat) (ss : List String) : Message := ss.map fun s => (field, .text s)

def erase (m : Message) (field : Nat) : Message := m.filter fun e => e.1 ≠ field

end Message

/-- The 64-bit form of a signed number. -/
def word (n : Int) : UInt64 := UInt64.ofNat (n % 0x10000000000000000).toNat

/-- The signed number with this 64-bit form. -/
def signed (n : UInt64) : Int :=
  if n.toNat < 1 <<< 63 then n.toNat else (n.toNat : Int) - 0x10000000000000000

end PacketRelay.Schema
