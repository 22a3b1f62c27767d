import PacketRelay.Schema.Message

/-!
# Decoding messages

The entries of an encoded message are sorted into the slots of its type.  The last number, text or
byte string of a single slot counts; repeated occurrences of a nested message are merged, which
amounts to reading their entries one after another; of a choice the last run of one field counts.
Fields outside the type are dropped.  Every entry of a known field must be well formed, also one
that a later entry replaces.
-/

namespace PacketRelay.Schema

open Wire (Payload Entry)

/-- How deep messages and groups may nest. -/
def nestingLimit : Nat := 100

/-- The 64-bit form of the signed number in the low 32 bits. -/
def extendSign (n : UInt64) : UInt64 :=
  let low := n &&& 0xFFFFFFFF
  if low < 0x80000000 then low else low ||| 0xFFFFFFFF00000000

/-- The value of a number field that was read as 64 bits. -/
def Kind.normalize : Kind → UInt64 → UInt64
  | .uint32, n => n &&& 0xFFFFFFFF
  | .int32, n => extendSign n
  | .enumeration, n => extendSign n
  | .bool, n => if n = 0 then 0 else 1
  | _, n => n

/-- The words among the payloads of a number field. -/
def readNumber : Payload → Option UInt64
  | .word n => some n
  | _ => none

/-- The words of one payload of a repeated number field, packed or not. -/
def readNumbers : Payload → Option (List UInt64)
  | .word n => some [n]
  | .bytes b => Wire.readWords b
  | .other => none

def readBytes : Payload → Option Bytes
  | .bytes b => some b
  | _ => none

def readText (p : Payload) : Option String := readBytes p >>= Bytes.toText?

/-- How nested messages are read: from the byte strings of their occurrences. -/
abbrev Nested := MessageType → List Bytes → Option Message

/-- The value of a field that occurred with these payloads, the last one counting. -/
def readValue (nested : Nested) (kind : Kind) (payloads : List Payload) : Option (Option Value) :=
  match kind with
  | .text => do return (← payloads.mapM readText).getLast?.map Value.text
  | .bytes => do return (← payloads.mapM readBytes).getLast?.map Value.bytes
  | .message t => do
    let occurrences ← payloads.mapM readBytes
    if occurrences.isEmpty then return none
    return some (Value.message (← nested t occurrences))
  | numeric => do
    return (← payloads.mapM readNumber).getLast?.map fun n => Value.number (numeric.normalize n)

/-- Whether a value is what an absent field stands for. -/
def Value.isDefault : Value → Bool
  | .number n => n = 0
  | .text s => s = ""
  | .bytes b => b = []
  | _ => false

/-- The values of a repeated field that occurred with these payloads. -/
def readRepeated (nested : Nested) (kind : Kind) (payloads : List Payload) : Option (List Value) :=
  match kind with
  | .text => do return (← payloads.mapM readText).map Value.text
  | .bytes => do return (← payloads.mapM readBytes).map Value.bytes
  | .message t => payloads.mapM fun p => do
      let b ← readBytes p
      return Value.message (← nested t [b])
  | numeric => do
    let ns := (← payloads.mapM readNumbers).flatten
    return if ns.isEmpty then [] else [Value.numbers (ns.map numeric.normalize)]

/-- The payloads of the entries of a field. -/
def payloadsOf (number : Nat) (entries : List Entry) : List Payload :=
  (entries.filter (·.1 == number)).map (·.2)

/-- Reads a run of entries of one member of a choice. -/
def readRun (nested : Nested) (members : List Field) (run : List Entry) :
    Option (Option (Nat × Value)) :=
  match run with
  | [] => some none
  | (number, _) :: _ =>
    match members.find? (·.number == number) with
    | none => some none
    | some f => do return (← readValue nested f.kind (run.map (·.2))).map (number, ·)

/-- The fields that a slot contributes to the message. -/
def readSlot (nested : Nested) (entries : List Entry) : Slot → Option Message
  | .single f => do
    match ← readValue nested f.kind (payloadsOf f.number entries) with
    | none => return []
    | some v => return if v.isDefault then [] else [(f.number, v)]
  | .repeated f => do
    return (← readRepeated nested f.kind (payloadsOf f.number entries)).map (f.number, ·)
  | .choice members => do
    let own := entries.filter fun e => members.any (·.number == e.1)
    let runs ← (own.splitBy fun a b => a.1 == b.1).mapM (readRun nested members)
    return (runs.getLast?.join).toList

/-- Reads the occurrences of one message, merged. -/
def readMerged (limit : Nat) (nested : Nested) : Nested := fun t occurrences => do
  let entries := (← occurrences.mapM (Wire.readEntries limit)).flatten
  return (← t.slots.mapM (readSlot nested entries)).flatten

/-- Reads the occurrences of one message, in which messages nest no deeper than `limit`. -/
def readMessage : (limit : Nat) → Nested
  | 0 => readMerged 0 fun _ _ => none
  | limit + 1 => readMerged (limit + 1) (readMessage limit)

/-- The message of type `t` with this encoding. -/
def decode (t : MessageType) (b : Bytes) : Option Message := readMessage nestingLimit t [b]

end PacketRelay.Schema
