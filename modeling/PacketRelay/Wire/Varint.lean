import PacketRelay.Bytes

/-!
# Variable-length numbers

A number is written in groups of seven bits, the least significant one first; every byte but the
last has its high bit set.  The reader takes numbers below a power of two, so 64 bits end within ten
bytes, and allows groups of zeros at the end.
-/

namespace PacketRelay.Wire

def varint (n : Nat) : Bytes :=
  if n < 128 then [UInt8.ofNat n] else UInt8.ofNat (n % 128 + 128) :: varint (n / 128)

/-- Reads a number of at most `room` bits and returns the bytes after it. -/
def readVarint : (room : Nat) → Bytes → Option (Nat × Bytes)
  | _, [] => none
  | room, b :: rest =>
    if b.toNat < 128 then
      if b.toNat < 1 <<< room then some (b.toNat, rest) else none
    else if room < 8 then none
    else (readVarint (room - 7) rest).map fun (n, rest) => (b.toNat - 128 + 128 * n, rest)

/-- Reads a number of 64 bits. -/
def readWord (b : Bytes) : Option (UInt64 × Bytes) :=
  (readVarint 64 b).map fun (n, rest) => (UInt64.ofNat n, rest)

/-- Reads numbers of 64 bits up to the end. -/
def readWords (b : Bytes) : Option (List UInt64) := go b.length b
where
  /-- `fuel` bounds how many numbers are read. -/
  go : (fuel : Nat) → Bytes → Option (List UInt64)
    | _, [] => some []
    | 0, _ :: _ => none
    | fuel + 1, b => do
      let (n, rest) ← readWord b
      return n :: (← go fuel rest)

theorem varint_of_lt {n : Nat} (h : n < 128) : varint n = [UInt8.ofNat n] := by
  rw [varint, if_pos h]

theorem varint_of_ge {n : Nat} (h : 128 ≤ n) :
    varint n = UInt8.ofNat (n % 128 + 128) :: varint (n / 128) := by
  rw [varint, if_neg (by omega)]

/-- The reader takes back what was written and leaves what follows. -/
theorem readVarint_varint {room n : Nat} (h : n < 1 <<< room) (rest : Bytes) :
    readVarint room (varint n ++ rest) = some (n, rest) := by
  induction n using varint.induct generalizing room with
  | case1 n hn =>
    have hb : (UInt8.ofNat n).toNat = n := by simp; omega
    simp [varint_of_lt hn, readVarint, hb, hn, h]
  | case2 n hn ih =>
    have hb : (UInt8.ofNat (n % 128 + 128)).toNat = n % 128 + 128 := by simp; omega
    have hroom : 8 ≤ room := by
      rcases Nat.lt_or_ge room 8 with hr | hr
      · have : 1 <<< room ≤ 1 <<< 7 := by
          simpa only [Nat.one_shiftLeft] using Nat.pow_le_pow_right (by omega) (by omega)
        omega
      · exact hr
    have hsmall : n / 128 < 1 <<< (room - 7) := by
      have : 1 <<< room = 1 <<< (room - 7) * 128 := by
        conv => lhs; rw [← Nat.sub_add_cancel (show 7 ≤ room by omega), Nat.shiftLeft_add]
        exact Nat.shiftLeft_eq _ 7
      rw [this] at h
      exact Nat.div_lt_of_lt_mul (by omega)
    simp only [varint_of_ge (Nat.le_of_not_lt hn), List.cons_append, readVarint, hb,
      show ¬ n % 128 + 128 < 128 by omega, show ¬ room < 8 by omega, if_false, ih hsmall,
      Option.map_some]
    congr 2
    omega

theorem varint_ne_nil (n : Nat) : varint n ≠ [] := by
  rw [varint]
  split <;> simp

end PacketRelay.Wire
