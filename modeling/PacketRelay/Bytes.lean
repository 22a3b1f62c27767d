/-!
# Byte strings

Byte strings are lists, so that codecs are stated by recursion on the data.  A text and its
UTF-8 bytes determine each other.
-/

namespace PacketRelay

abbrev Bytes := List UInt8

namespace Bytes

def ofText (s : String) : Bytes := s.toByteArray.toList

/-- The text with these UTF-8 bytes, if they are well formed. -/
def toText? (b : Bytes) : Option String := String.fromUTF8? ⟨b.toArray⟩

/-- The number written by the bytes, the first one being the most significant. -/
def toNatBig (b : Bytes) : Nat := b.foldl (fun n byte => n * 256 + byte.toNat) 0

/-- The `width` least significant bytes of `n`, the most significant one first. -/
def ofNatBig : (width n : Nat) → Bytes
  | 0, _ => []
  | width + 1, n => ofNatBig width (n / 256) ++ [UInt8.ofNat n]

/-- The `width` least significant bytes of `n`, the least significant one first. -/
def ofNatLittle : (width n : Nat) → Bytes
  | 0, _ => []
  | width + 1, n => UInt8.ofNat n :: ofNatLittle width (n / 256)

end Bytes

end PacketRelay
