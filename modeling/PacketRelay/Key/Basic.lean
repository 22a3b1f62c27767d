import PacketRelay.Error.Basic
import PacketRelay.Hash.Ripemd160
import PacketRelay.Hex
import PacketRelay.Key.Bech32
import PacketRelay.Key.Secp256k1
import PacketRelay.Text.Blank

/-!
# Signing keys

A private key of the curve secp256k1 with a name, the account address that belongs to it, and its
signatures over the SHA-256 digest of a document.
-/

namespace PacketRelay

structure PrivateKey where
  name : String
  secret : Nat
  deriving Repr

namespace PrivateKey

/-- The key with these 32 bytes, a positive number below the group order. -/
def ofBytes (name : String) (b : Bytes) : Except RelayError PrivateKey :=
  if b.length ≠ 32 then .error (.keyResolution "private key must be 32 bytes")
  else
    let secret := Bytes.toNatBig b
    if secret = 0 ∨ Key.Secp256k1.groupOrder ≤ secret then
      .error (.keyResolution "invalid private key: malformed or out-of-range secret key")
    else .ok ⟨name, secret⟩

/-- The key written in hexadecimal, within blanks. -/
def ofHex (name text : String) : Except RelayError PrivateKey :=
  match Hex.decode (String.ofList (Text.strip text.toList)) with
  | .error fault => .error (.keyResolution ("invalid hex key: " ++ fault.message))
  | .ok b => ofBytes name b

/-- The 33 bytes of the public key. -/
def publicKey (k : PrivateKey) : Bytes := Key.Secp256k1.publicKey k.secret

/-- The account address of a public key under a human-readable part. -/
def addressOf (publicKey : Bytes) (hrp : String) : Except RelayError String :=
  match Key.Bech32.encode hrp (Hash.ripemd160 (Hash.sha256 publicKey)) with
  | .ok address => .ok address
  | .error fault => .error (.keyResolution ("bech32 encoding failed: " ++ fault.message))

def address (k : PrivateKey) (hrp : String) : Except RelayError String := addressOf k.publicKey hrp

/-- The 64 bytes of the signature over a document. -/
def sign (k : PrivateKey) (document : Bytes) : Bytes :=
  Key.Secp256k1.sign k.secret (Hash.sha256 document)

/-- How a key is shown in logs: without its secret. -/
def summary (k : PrivateKey) : String :=
  "Secp256k1Key \x7b name: " ++ Text.quoted k.name ++ ", public_key: "
    ++ Text.quoted (Hex.encode k.publicKey) ++ " \x7d"

end PrivateKey

end PacketRelay
