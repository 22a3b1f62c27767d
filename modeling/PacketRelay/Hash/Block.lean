import PacketRelay.Bytes

/-!
# Messages cut into blocks

The padding shared by the hash functions of this library: a one bit, zeros, and the bit length in
eight bytes fill the message up to a multiple of 64 bytes.
-/

namespace PacketRelay.Hash

/-- How many zero bytes follow the one bit of a message of `n` bytes. -/
def zeroCount (n : Nat) : Nat := (119 - n % 64) % 64

/-- The padded message; `lengthBytes` writes the bit length. -/
def pad (lengthBytes : Nat → Bytes) (m : Bytes) : Bytes :=
  m ++ 0x80 :: List.replicate (zeroCount m.length) 0 ++ lengthBytes (8 * m.length)

/-- The consecutive pieces of `size + 1` bytes, the last one possibly shorter. -/
def pieces (size : Nat) (b : Bytes) : List Bytes :=
  match b with
  | [] => []
  | x :: rest => (x :: rest.take size) :: pieces size (rest.drop size)
termination_by b.length

end PacketRelay.Hash
