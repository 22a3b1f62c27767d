import PacketRelay.Hex
import PacketRelay.Proofs.Bytes

/-!
# Reading hexadecimal text

Which texts spell which bytes is said without the reader: two digits for each byte, each in either
letter case.  The reader returns exactly the bytes that its text spells.
-/

namespace PacketRelay.Hex

/-- The character is the digit of a number below sixteen, in either letter case. -/
def IsDigit (c : Char) (n : Nat) : Prop := n < 16 ∧ (c = digit 'a' n ∨ c = digit 'A' n)

/-- Two digits for each byte, the more significant one first. -/
inductive Spells : List Char → Bytes → Prop where
  | nil : Spells [] []
  | cons {high low : Char} {b : UInt8} {cs : List Char} {bs : Bytes}
      (hhigh : IsDigit high (b.toNat / 16)) (hlow : IsDigit low (b.toNat % 16))
      (hrest : Spells cs bs) : Spells (high :: low :: cs) (b :: bs)

theorem ascii_of_isDigit {c : Char} {n : Nat} (hc : IsDigit c n) : c.toNat < 128 := by
  have hall : ∀ n < 16, (digit 'a' n).toNat < 128 ∧ (digit 'A' n).toNat < 128 := by decide
  obtain ⟨hn, rfl | rfl⟩ := hc
  · exact (hall n hn).1
  · exact (hall n hn).2

theorem digitValue?_of_isDigit {c : Char} {n : Nat} (hc : IsDigit c n) :
    digitValue? (UInt8.ofNat c.toNat) = some n := by
  have hall : ∀ n < 16, digitValue? (UInt8.ofNat (digit 'a' n).toNat) = some n ∧
      digitValue? (UInt8.ofNat (digit 'A' n).toNat) = some n := by decide
  obtain ⟨hn, rfl | rfl⟩ := hc
  · exact (hall n hn).1
  · exact (hall n hn).2

theorem exists_isDigit {b : UInt8} {n : Nat} (hb : digitValue? b = some n) :
    ∃ c, IsDigit c n ∧ UInt8.ofNat c.toNat = b := by
  have hn : n < 16 := by
    unfold digitValue? at hb
    grind
  -- There are only 256 bytes, so the inverse of the reader is found by looking at all of them.
  have hall : ∀ k < 256, ∀ n < 16, digitValue? (UInt8.ofNat k) = some n →
      (digit 'a' n).toNat = k ∨ (digit 'A' n).toNat = k := by decide +kernel
  obtain hlower | hupper := hall b.toNat b.toNat_lt n hn (by rwa [UInt8.ofNat_toNat])
  · exact ⟨digit 'a' n, ⟨hn, .inl rfl⟩, by rw [hlower, UInt8.ofNat_toNat]⟩
  · exact ⟨digit 'A' n, ⟨hn, .inr rfl⟩, by rw [hupper, UInt8.ofNat_toNat]⟩

theorem Spells.ascii {cs : List Char} {bs : Bytes} (h : Spells cs bs) :
    ∀ c ∈ cs, c.toNat < 128 := by
  induction h with
  | nil => simp
  | cons hhigh hlow _ ih =>
      exact List.forall_mem_cons.mpr
        ⟨ascii_of_isDigit hhigh, List.forall_mem_cons.mpr ⟨ascii_of_isDigit hlow, ih⟩⟩

theorem Spells.decodeFrom {cs : List Char} {bs : Bytes} (h : Spells cs bs) (position : Nat) :
    decodeFrom position (cs.map fun c => UInt8.ofNat c.toNat) = .ok bs := by
  induction h generalizing position with
  | nil => rfl
  | @cons high low b cs bs hhigh hlow _ ih =>
      have hbyte : b.toNat / 16 * 16 + b.toNat % 16 = b.toNat := Nat.div_add_mod' b.toNat 16
      simp [Hex.decodeFrom, digitValue?_of_isDigit hhigh, digitValue?_of_isDigit hlow, ih,
        Except.map, hbyte]

theorem exists_spells {position : Nat} {ascii bs : Bytes}
    (h : decodeFrom position ascii = .ok bs) :
    ∃ cs, Spells cs bs ∧ cs.map (fun c => UInt8.ofNat c.toNat) = ascii := by
  induction position, ascii using decodeFrom.induct generalizing bs with
  | case1 position =>
      obtain rfl : [] = bs := by simpa [decodeFrom] using h
      exact ⟨[], .nil, rfl⟩
  | case2 position b => simp [decodeFrom] at h
  | case3 position high low rest hhigh => simp [decodeFrom, hhigh] at h
  | case4 position high low rest h' hhigh hlow => simp [decodeFrom, hhigh, hlow] at h
  | case5 position high low rest n m hm hn ih =>
      simp only [decodeFrom, hn, hm] at h
      cases hrest : decodeFrom (position + 2) rest with
      | error fault => simp [hrest, Except.map] at h
      | ok bytes =>
          obtain rfl : UInt8.ofNat (n * 16 + m) :: bytes = bs := by
            simpa [hrest, Except.map] using h
          obtain ⟨cs, hcs, rfl⟩ := ih hrest
          obtain ⟨c, hc, rfl⟩ := exists_isDigit hn
          obtain ⟨d, hd, rfl⟩ := exists_isDigit hm
          have hvalue : (UInt8.ofNat (n * 16 + m)).toNat = n * 16 + m :=
            UInt8.toNat_ofNat_of_lt' (by have := hc.1; have := hd.1; simp only [UInt8.size]; omega)
          refine ⟨c :: d :: cs, .cons ?_ ?_ hcs, rfl⟩
          · rwa [hvalue, show (n * 16 + m) / 16 = n by have := hd.1; omega]
          · rwa [hvalue, show (n * 16 + m) % 16 = m by have := hd.1; omega]

theorem Spells.length_eq {cs : List Char} {bs : Bytes} (h : Spells cs bs) :
    cs.length = 2 * bs.length := by
  induction h with
  | nil => rfl
  | cons _ _ _ ih => simp only [List.length_cons, ih]; omega

theorem decodeBytes_ok_iff {ascii bs : Bytes} :
    decodeBytes ascii = .ok bs ↔
      ∃ cs, Spells cs bs ∧ cs.map (fun c => UInt8.ofNat c.toNat) = ascii := by
  constructor
  · intro h
    rw [decodeBytes] at h
    split at h
    · cases h
    · exact exists_spells h
  · rintro ⟨cs, hcs, rfl⟩
    rw [decodeBytes, if_neg (by rw [List.length_map, hcs.length_eq]; omega)]
    exact hcs.decodeFrom 0

/-- The reader returns the bytes that the text spells, and fails on any other text. -/
theorem decode_ok_iff {text : String} {bs : Bytes} :
    decode text = .ok bs ↔ Spells text.toList bs := by
  have hbytes {cs : List Char} (hcs : Spells cs bs) :
      Bytes.ofText (String.ofList cs) = cs.map fun c => UInt8.ofNat c.toNat :=
    Bytes.ofText_ofList_of_ascii hcs.ascii
  rw [decode, decodeBytes_ok_iff]
  constructor
  · rintro ⟨cs, hcs, hascii⟩
    rw [← hbytes hcs, Bytes.ofText_inj] at hascii
    rwa [← hascii, String.toList_ofList]
  · intro h
    exact ⟨text.toList, h, by rw [← hbytes h, String.ofList_toList]⟩

end PacketRelay.Hex
