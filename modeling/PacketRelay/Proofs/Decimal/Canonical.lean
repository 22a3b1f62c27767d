import Mathlib.Data.List.Induction
import PacketRelay.Proofs.Decimal.Numerals

/-!
# Numerals without leading zeros

Each number has one numeral without leading zeros: the digits of the number, from which its value is
read again.
-/

namespace PacketRelay.Decimal

theorem digitChar_of_digitValue? {c : Char} {d : Nat} (h : digitValue? c = some d) :
    digitChar d = c ∧ d < 10 := by
  unfold digitValue? at h
  split at h
  · next hc =>
    obtain rfl := Option.some.inj h
    have hlow : 48 ≤ c.toNat := hc.1
    have hhigh : c.toNat ≤ 57 := hc.2
    refine ⟨?_, by omega⟩
    rw [digitChar, Nat.add_sub_cancel' hlow, Char.ofNat_toNat]
  · cases h

theorem isDigit_iff {c : Char} : isDigit c = true ↔ '0' ≤ c ∧ c ≤ '9' := by
  simp [isDigit, digitValue?]

theorem isDigit_and_ne_zero_iff {c : Char} : isDigit c = true ∧ c ≠ '0' ↔ '1' ≤ c ∧ c ≤ '9' := by
  have hone : '1'.val.toNat = 49 := rfl
  have hzero : '0'.val.toNat = 48 := rfl
  rw [isDigit_iff, Char.le_def, Char.le_def, Char.le_def, ne_eq, Char.ext_iff, ← UInt32.toNat_inj,
    UInt32.le_iff_toNat_le, UInt32.le_iff_toNat_le, UInt32.le_iff_toNat_le]
  omega

theorem valueOf_concat (ds : List Char) {c : Char} {d : Nat} (hc : digitValue? c = some d) :
    valueOf (ds ++ [c]) = valueOf ds * 10 + d := by
  rw [valueOf, List.foldl_append, List.foldl_cons, List.foldl_nil, hc, Option.getD_some, valueOf]

theorem valueOf_digits (n : Nat) : valueOf (digits n) = n := by
  induction n using digits.induct with
  | case1 n hn =>
      rw [digits_of_lt hn, ← List.nil_append [digitChar n],
        valueOf_concat [] (digitValue?_digitChar hn)]
      exact Nat.zero_add n
  | case2 n hn ih =>
      rw [digits_of_ge (Nat.not_lt.mp hn),
        valueOf_concat _ (digitValue?_digitChar (Nat.mod_lt n (by omega))), ih]
      omega

theorem digits_inj {m n : Nat} : digits m = digits n ↔ m = n := by
  refine ⟨fun h => ?_, fun h => by rw [h]⟩
  rw [← valueOf_digits m, h, valueOf_digits]

theorem text_inj {m n : Nat} : text m = text n ↔ m = n := by
  rw [text, text, String.ofList_inj, digits_inj]

theorem head?_digits_ne_zero {n : Nat} (hn : 0 < n) : (digits n).head? ≠ some '0' := by
  induction n using digits.induct with
  | case1 n hlt =>
      rw [digits_of_lt hlt, List.head?_singleton]
      intro hzero
      have hvalue := digitValue?_digitChar hlt
      rw [Option.some.inj hzero] at hvalue
      have hnone : n = 0 := (Option.some.inj hvalue).symm
      omega
  | case2 n hge ih =>
      rw [digits_of_ge (Nat.not_lt.mp hge), List.head?_append,
        Option.or_of_isSome (by simpa using digits_ne_nil _)]
      exact ih (by omega)

theorem valueOf_pos {ds : List Char} (hds : IsRun ds) (hne : ds ≠ [])
    (hhead : ds.head? ≠ some '0') : 0 < valueOf ds := by
  cases ds with
  | nil => exact absurd rfl hne
  | cons c cs =>
      obtain ⟨d, hd⟩ := Option.isSome_iff_exists.mp (hds c List.mem_cons_self)
      have hle : d ≤ valueOf (c :: cs) := by
        have hgrows := le_foldl_digits d cs
        rwa [valueOf, List.foldl_cons, hd, Option.getD_some, Nat.zero_mul, Nat.zero_add]
      obtain rfl | hpos := Nat.eq_zero_or_pos d
      · obtain ⟨rfl, _⟩ := digitChar_of_digitValue? hd
        exact absurd rfl hhead
      · omega

/-- Digits without a leading zero are the numeral of their value. -/
theorem digits_valueOf {ds : List Char} (hds : IsRun ds) (hne : ds ≠ [])
    (hhead : ds.head? ≠ some '0') : digits (valueOf ds) = ds := by
  induction ds using List.reverseRecOn with
  | nil => exact absurd rfl hne
  | append_singleton ds c ih =>
      have hrun : IsRun ds := fun d hd => hds d (List.mem_append_left [c] hd)
      obtain ⟨d, hd⟩ := Option.isSome_iff_exists.mp (hds c List.mem_concat_self)
      obtain ⟨rfl, hlt⟩ := digitChar_of_digitValue? hd
      rw [valueOf_concat ds hd]
      cases ds with
      | nil =>
          have hvalue : valueOf [] * 10 + d = d := Nat.zero_add d
          rw [hvalue, List.nil_append, digits_of_lt hlt]
      | cons first rest =>
          have hfirst : (first :: rest).head? ≠ some '0' := hhead
          have hpos := valueOf_pos hrun (List.cons_ne_nil first rest) hfirst
          have hdiv : (valueOf (first :: rest) * 10 + d) / 10 = valueOf (first :: rest) := by omega
          have hmod : (valueOf (first :: rest) * 10 + d) % 10 = d := by omega
          rw [digits_of_ge (by omega), hdiv, hmod, ih hrun (List.cons_ne_nil first rest) hfirst]

theorem toOption_readUInt64_digits (n : Nat) :
    (readUInt64 (digits n)).toOption = if n < 1 <<< 64 then some (UInt64.ofNat n) else none := by
  ext m
  have hm : m.toNat < 1 <<< 64 := by simpa using m.toNat_lt
  rw [readUInt64_run (isRun_digits n) (digits_ne_nil n), valueOf_digits]
  split
  · next hn =>
    have hsize : n < UInt64.size := by simpa using hn
    rw [Option.some.injEq, ← UInt64.toNat_inj, UInt64.toNat_ofNat_of_lt' hsize]
  · next hn => exact iff_of_false (fun heq => hn (heq ▸ hm)) nofun

end PacketRelay.Decimal
