import PacketRelay.Bytes

/-!
# Bech32 addresses

A human-readable part, the separator `1`, the data in groups of five bits, and a checksum of six
characters (BIP 173).
-/

namespace PacketRelay.Key.Bech32

/-- The characters of the 32 groups of five bits. -/
def alphabet : List Char := "qpzry9x8gf2tvdw0s3jn54khce6mua7l".toList

/-- Why a text cannot be the human-readable part of an address. -/
inductive PrefixFault where
  | badLength
  | badCharacter (byte : UInt8)
  | mixedCase
  deriving DecidableEq, Repr

/-- A byte that is not allowed is shown as the character with its number. -/
def PrefixFault.message : PrefixFault → String
  | .badLength => "invalid length"
  | .badCharacter byte =>
    "invalid character (code=" ++ String.singleton (Char.ofNat byte.toNat) ++ ")"
  | .mixedCase => "mixed-case strings not allowed"

def isUpper (b : UInt8) : Bool := 65 ≤ b.toNat && b.toNat ≤ 90

def isLower (b : UInt8) : Bool := 97 ≤ b.toNat && b.toNat ≤ 122

/-- Looks for a byte that is not allowed, and for letters of both cases, from left to right. -/
def checkPrefix : (lower upper : Bool) → Bytes → Except PrefixFault Unit
  | _, _, [] => .ok ()
  | lower, upper, b :: rest =>
    if b.toNat < 33 || 126 < b.toNat then .error (.badCharacter b)
    else
      let lower := lower || isLower b
      let upper := upper || isUpper b
      if lower && upper then .error .mixedCase else checkPrefix lower upper rest

/-- The lower-case form of a valid human-readable part. -/
def normalPrefix (s : String) : Except PrefixFault Bytes := do
  let b := Bytes.ofText s
  if b.isEmpty || 83 < b.length then throw .badLength
  checkPrefix false false b
  return b.map fun c => if isUpper c then c + 32 else c

/-- The groups of five bits of a byte string, the last one filled up with zeros. -/
def groups (b : Bytes) : List Nat :=
  let count := (b.length * 8 + 4) / 5
  let n := Bytes.toNatBig b <<< (count * 5 - b.length * 8)
  (List.range count).map fun i => n >>> (5 * (count - 1 - i)) % 32

/-- The remainder of the checksum's polynomial division. -/
def polymod (values : List Nat) : Nat :=
  let generators := [0x3b6a57b2, 0x26508e6d, 0x1ea119fa, 0x3d4233dd, 0x2a1462b3]
  values.foldl (fun chk v =>
    let top := chk >>> 25
    let shifted := ((chk &&& 0x1ffffff) <<< 5) ^^^ v
    (generators.zipIdx.foldl
      (fun acc (g, i) => if (top >>> i) &&& 1 = 1 then acc ^^^ g else acc) shifted)) 1

def checksum (hrp : Bytes) (data : List Nat) : List Nat :=
  let expanded := hrp.map (·.toNat / 32) ++ 0 :: hrp.map (·.toNat % 32)
  let m := polymod (expanded ++ data ++ List.replicate 6 0) ^^^ 1
  (List.range 6).map fun i => (m >>> (5 * (5 - i))) % 32

/-- The address of `payload` under a human-readable part. -/
def encode (hrp : String) (payload : Bytes) : Except PrefixFault String := do
  let normal ← normalPrefix hrp
  let data := groups payload
  let symbols := (data ++ checksum normal data).map fun g => alphabet.getD g 'q'
  return String.ofList (normal.map (fun b => Char.ofNat b.toNat) ++ '1' :: symbols)

end PacketRelay.Key.Bech32
