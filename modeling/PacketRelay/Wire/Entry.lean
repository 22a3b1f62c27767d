import PacketRelay.Wire.Varint

/-!
# Entries of an encoded message

An encoded message is a sequence of entries: a key with a field number and a wire type, and a
payload.  Entries are read without knowing the message type, so fields that a type does not know are
found well formed before they are dropped.
-/

namespace PacketRelay.Wire

/-- What follows a key; numbers of fixed width and groups are kept only as being there. -/
inductive Payload where
  | word (n : UInt64)
  | bytes (b : Bytes)
  | other
  deriving DecidableEq, Repr

/-- A field number and its payload. -/
abbrev Entry := Nat × Payload

def writeEntry : Entry → Bytes
  | (number, .word n) => varint (number * 8) ++ varint n.toNat
  | (number, .bytes b) => varint (number * 8 + 2) ++ (varint b.length ++ b)
  | (_, .other) => []

/-- Reads the field number and the wire type. -/
def readKey (b : Bytes) : Option ((Nat × Nat) × Bytes) :=
  match readVarint 64 b with
  | none => none
  | some (key, rest) =>
    if key < 1 <<< 32 ∧ 8 ≤ key then some ((key / 8, key % 8), rest) else none

/-- Leaves out the next `n` bytes. -/
def skip (n : Nat) (b : Bytes) : Option Bytes := if n ≤ b.length then some (b.drop n) else none

/-- Reads a length and that many bytes. -/
def readSized (b : Bytes) : Option (Bytes × Bytes) :=
  match readVarint 64 b with
  | none => none
  | some (n, rest) => if n ≤ rest.length then some (rest.take n, rest.drop n) else none

/-- Leaves out the entries of a group up to its end.  `limit` bounds how deep groups nest. -/
def skipGroup : (fuel limit number : Nat) → Bytes → Option Bytes
  | 0, _, _, _ => none
  | fuel + 1, limit, number, b =>
    match readKey b with
    | none => none
    | some ((inner, 4), rest) => if inner = number then some rest else none
    | some ((inner, wireType), rest) =>
      if limit = 0 then none
      else
        let after : Option Bytes := match wireType with
          | 0 => (readVarint 64 rest).map Prod.snd
          | 1 => skip 8 rest
          | 2 => (readSized rest).map Prod.snd
          | 3 => skipGroup fuel (limit - 1) inner rest
          | 5 => skip 4 rest
          | _ => none
        after.bind (skipGroup fuel limit number)

def readEntry (limit : Nat) (b : Bytes) : Option (Entry × Bytes) :=
  match readKey b with
  | none => none
  | some ((number, wireType), rest) =>
    match wireType with
    | 0 => (readWord rest).map fun (n, rest) => ((number, .word n), rest)
    | 1 => (skip 8 rest).map fun rest => ((number, .other), rest)
    | 2 => (readSized rest).map fun (s, rest) => ((number, .bytes s), rest)
    | 3 => (skipGroup rest.length (limit - 1) number rest).map fun rest => ((number, .other), rest)
    | 5 => (skip 4 rest).map fun rest => ((number, .other), rest)
    | _ => none

/-- Reads entries up to the end.  `limit` bounds how deep groups nest. -/
def readEntries (limit : Nat) (b : Bytes) : Option (List Entry) := go b.length b
where
  /-- `fuel` bounds how many entries are read. -/
  go : (fuel : Nat) → Bytes → Option (List Entry)
    | _, [] => some []
    | 0, _ :: _ => none
    | fuel + 1, b =>
      match readEntry limit b with
      | none => none
      | some (e, rest) => (go fuel rest).map (e :: ·)

end PacketRelay.Wire
