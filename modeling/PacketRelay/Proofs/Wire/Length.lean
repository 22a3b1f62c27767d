import Mathlib.Algebra.Order.BigOperators.Group.List
import Mathlib.Algebra.Ring.Nat
import PacketRelay.Wire.Entry

/-!
# How long entries are

The writer uses the fewest bytes for every number, so an entry that was read took at least as many
bytes as it is written with.  Numbers added or doubled need few bytes more.
-/

namespace PacketRelay.Wire

theorem length_varint_le {n k : Nat} (hn : n < Nat.pow 128 (k + 1)) :
    (varint n).length ≤ k + 1 := by
  induction k generalizing n with
  | zero =>
      rw [varint_of_lt (by simpa using hn)]
      exact Nat.le_refl 1
  | succ k ih =>
      by_cases hsmall : n < 128
      · rw [varint_of_lt hsmall, List.length_singleton]
        omega
      · have hdiv : n / 128 < Nat.pow 128 (k + 1) := by
          have hsplit : Nat.pow 128 (k + 1 + 1) = Nat.pow 128 (k + 1) * 128 := rfl
          exact Nat.div_lt_of_lt_mul (by omega)
        rw [varint_of_ge (Nat.le_of_not_lt hsmall), List.length_cons]
        exact Nat.succ_le_succ (ih hdiv)

theorem length_varint_le_succ (n : Nat) : (varint n).length ≤ n + 1 := by
  refine length_varint_le (Nat.lt_of_lt_of_le (Nat.lt_pow_self (by decide : 1 < 128)) ?_)
  exact Nat.pow_le_pow_right (by decide) (Nat.le_succ n)

theorem length_writeEntry_bytes_le (field : Nat) (b : Bytes) :
    (writeEntry (field, .bytes b)).length ≤ 8 * field + 2 * b.length + 4 := by
  have hkey := length_varint_le_succ (field * 8 + 2)
  have hsize := length_varint_le_succ b.length
  rw [writeEntry, List.length_append, List.length_append]
  omega

theorem length_writeEntry_word_le (field : Nat) (n : UInt64) :
    (writeEntry (field, .word n)).length ≤ 8 * field + 11 := by
  have hkey := length_varint_le_succ (field * 8)
  have hword : (varint n.toNat).length ≤ 10 :=
    length_varint_le (Nat.lt_trans n.toNat_lt (by decide))
  rw [writeEntry, List.length_append]
  omega

theorem length_varint_pos (n : Nat) : 0 < (varint n).length :=
  List.length_pos_iff.mpr (varint_ne_nil n)

theorem lt_pow_length_varint (n : Nat) : n < 128 ^ (varint n).length := by
  induction n using varint.induct with
  | case1 n hn =>
      rw [varint_of_lt hn]
      exact hn
  | case2 n hn ih =>
      rw [varint_of_ge (Nat.le_of_not_lt hn), List.length_cons, Nat.pow_succ]
      omega

theorem length_varint_le_iff {n k : Nat} (hk : 0 < k) :
    (varint n).length ≤ k ↔ n < 128 ^ k := by
  constructor
  · intro h
    exact Nat.lt_of_lt_of_le (lt_pow_length_varint n) (Nat.pow_le_pow_right (by decide) h)
  · intro h
    obtain ⟨k, rfl⟩ := Nat.exists_eq_succ_of_ne_zero hk.ne'
    exact length_varint_le h

theorem length_varint_mono {m n : Nat} (h : m ≤ n) : (varint m).length ≤ (varint n).length :=
  (length_varint_le_iff (length_varint_pos n)).mpr (Nat.lt_of_le_of_lt h (lt_pow_length_varint n))

theorem length_varint_add_le (m n : Nat) :
    (varint (m + n)).length ≤ (varint m).length + (varint n).length := by
  have hm := lt_pow_length_varint m
  have hn := lt_pow_length_varint n
  have hm1 := length_varint_pos m
  rw [length_varint_le_iff (by omega), Nat.pow_add]
  have hmul : (m + 1) * (n + 1) ≤ 128 ^ (varint m).length * 128 ^ (varint n).length :=
    Nat.mul_le_mul hm hn
  have hexpand : (m + 1) * (n + 1) = m * n + n + (m + 1) := by
    rw [Nat.mul_succ, Nat.succ_mul]
  omega

theorem length_varint_double_le (n : Nat) :
    (varint (2 * n)).length ≤ (varint n).length + 1 := by
  have hn := lt_pow_length_varint n
  rw [length_varint_le_iff (by omega), Nat.pow_succ]
  omega

theorem length_varint_key (field : Nat) : (varint (field * 8 + 2)).length =
    (varint (field * 8)).length := by
  by_cases hsmall : field * 8 < 128
  · rw [varint_of_lt hsmall, varint_of_lt (by omega : field * 8 + 2 < 128)]
    rfl
  · have hdiv : (field * 8 + 2) / 128 = field * 8 / 128 := by omega
    rw [varint_of_ge (Nat.le_of_not_lt hsmall), varint_of_ge (by omega : 128 ≤ field * 8 + 2), hdiv]
    rfl

theorem length_writeEntry_word (field : Nat) (n : UInt64) : (writeEntry (field, .word n)).length =
    (varint (field * 8)).length + (varint n.toNat).length := by
  rw [writeEntry, List.length_append]

theorem length_writeEntry_bytes (field : Nat) (b : Bytes) :
    (writeEntry (field, .bytes b)).length =
      (varint (field * 8)).length + ((varint b.length).length + b.length) := by
  rw [writeEntry, List.length_append, List.length_append, length_varint_key]

/-- A byte string whose length is a sum, against entries that each pay for one summand. -/
theorem length_varint_sum_le {key : Nat} {costs sizes : List Nat} (h : List.Forall₂
      (fun cost size => key + ((varint size).length + size) ≤ 2 * cost) costs sizes)
    (hne : sizes ≠ []) :
    key + ((varint sizes.sum).length + sizes.sum) ≤ 2 * costs.sum := by
  induction h with
  | nil => exact absurd rfl hne
  | @cons cost size costs sizes hfirst hrest ih =>
      cases hrest with
      | nil => simpa using hfirst
      | @cons cost' size' costs sizes _ _ =>
          have hrest := ih (List.cons_ne_nil size' sizes)
          have hadd := length_varint_add_le size (size' :: sizes).sum
          rw [List.sum_cons, List.sum_cons (a := cost)]
          omega

section Reading

theorem length_of_readVarint {room : Nat} {b rest : Bytes} {n : Nat}
    (h : readVarint room b = some (n, rest)) : (varint n).length + rest.length ≤ b.length := by
  induction b generalizing room n with
  | nil => simp [readVarint] at h
  | cons x b ih =>
      simp only [readVarint] at h
      split at h
      · next hx =>
        split at h
        · obtain ⟨rfl, rfl⟩ : x.toNat = n ∧ b = rest := by simpa using h
          rw [varint_of_lt hx, List.length_singleton, List.length_cons]
          omega
        · cases h
      · next hx =>
        split at h
        · cases h
        · obtain ⟨⟨m, rest'⟩, hm, heq⟩ := Option.map_eq_some_iff.mp h
          obtain ⟨rfl, rfl⟩ : x.toNat - 128 + 128 * m = n ∧ rest' = rest := by simpa using heq
          have hlt := x.toNat_lt
          have hih := ih hm
          have hmore : (varint (x.toNat - 128 + 128 * m)).length ≤ (varint m).length + 1 := by
            have hm := lt_pow_length_varint m
            rw [length_varint_le_iff (by omega), Nat.pow_succ]
            omega
          rw [List.length_cons]
          omega

theorem length_of_readWord {b rest : Bytes} {n : UInt64} (h : readWord b = some (n, rest)) :
    (varint n.toNat).length + rest.length ≤ b.length := by
  obtain ⟨⟨m, rest'⟩, hm, heq⟩ := Option.map_eq_some_iff.mp h
  obtain ⟨rfl, rfl⟩ : UInt64.ofNat m = n ∧ rest' = rest := by simpa using heq
  have hread := length_of_readVarint hm
  have hmono : (varint (UInt64.ofNat m).toNat).length ≤ (varint m).length :=
    length_varint_mono (by rw [UInt64.toNat_ofNat']; exact Nat.mod_le m _)
  omega

theorem length_of_readWords_go {fuel : Nat} {b : Bytes} {ns : List UInt64}
    (h : readWords.go fuel b = some ns) :
    (ns.map fun n => (varint n.toNat).length).sum ≤ b.length := by
  induction fuel generalizing b ns with
  | zero =>
      cases b with
      | nil =>
          obtain rfl : [] = ns := by simpa [readWords.go] using h
          exact Nat.zero_le _
      | cons x b => cases h
  | succ fuel ih =>
      cases b with
      | nil =>
          obtain rfl : [] = ns := by simpa [readWords.go] using h
          exact Nat.zero_le _
      | cons x b =>
          simp only [readWords.go, Option.bind_eq_bind, Option.bind_eq_some_iff, Option.pure_def,
            Option.some.injEq] at h
          obtain ⟨⟨n, rest⟩, hn, ns', hns, rfl⟩ := h
          have hword := length_of_readWord hn
          have hih := ih hns
          rw [List.map_cons, List.sum_cons]
          exact Nat.le_trans (Nat.add_le_add_left hih _) hword

theorem length_of_readWords {b : Bytes} {ns : List UInt64} (h : readWords b = some ns) :
    (ns.map fun n => (varint n.toNat).length).sum ≤ b.length := length_of_readWords_go h

theorem length_of_readSized {b s rest : Bytes} (h : readSized b = some (s, rest)) :
    (varint s.length).length + s.length + rest.length ≤ b.length := by
  unfold readSized at h
  split at h
  · cases h
  · next n tail hn =>
    split at h
    · next hle =>
      obtain ⟨rfl, rfl⟩ : tail.take n = s ∧ tail.drop n = rest := by simpa using h
      have hread := length_of_readVarint hn
      rw [List.length_take_of_le hle, List.length_drop]
      omega
    · cases h

theorem length_of_readKey {b rest : Bytes} {number wireType : Nat}
    (h : readKey b = some ((number, wireType), rest)) :
    (varint (number * 8)).length + rest.length ≤ b.length := by
  unfold readKey at h
  split at h
  · cases h
  · next key tail hkey =>
    split at h
    · obtain ⟨⟨rfl, rfl⟩, rfl⟩ : (key / 8 = number ∧ key % 8 = wireType) ∧ tail = rest := by
        simpa using h
      have hread := length_of_readVarint hkey
      have hmono : (varint (key / 8 * 8)).length ≤ (varint key).length :=
        length_varint_mono (Nat.div_mul_le_self key 8)
      omega
    · cases h

theorem length_of_skip {n : Nat} {b rest : Bytes} (h : skip n b = some rest) :
    rest.length ≤ b.length := by
  unfold skip at h
  split at h
  · obtain rfl : b.drop n = rest := by simpa using h
    rw [List.length_drop]
    omega
  · cases h

theorem length_of_skipGroup {fuel limit number : Nat} {b rest : Bytes}
    (h : skipGroup fuel limit number b = some rest) : rest.length ≤ b.length := by
  induction fuel generalizing limit number b rest with
  | zero => cases h
  | succ fuel ih =>
      unfold skipGroup at h
      split at h
      · cases h
      · next inner tail hkey =>
        have hread := length_of_readKey hkey
        split at h
        · obtain rfl : tail = rest := by simpa using h
          omega
        · cases h
      · next inner wireType tail _ hkey =>
        have hread := length_of_readKey hkey
        split at h
        · cases h
        · obtain ⟨after, hafter, hrest⟩ := Option.bind_eq_some_iff.mp h
          have hlast := ih hrest
          have hpayload : after.length ≤ tail.length := by
            split at hafter
            · obtain ⟨⟨n, _⟩, hn, rfl⟩ := Option.map_eq_some_iff.mp hafter
              exact Nat.le_trans (Nat.le_add_left _ _) (length_of_readVarint hn)
            · exact length_of_skip hafter
            · obtain ⟨⟨s, _⟩, hs, rfl⟩ := Option.map_eq_some_iff.mp hafter
              exact Nat.le_trans (Nat.le_add_left _ _) (length_of_readSized hs)
            · exact ih hafter
            · exact length_of_skip hafter
            · cases hafter
          omega

/-- An entry that was read took at least the bytes that it is written with. -/
theorem length_of_other {number : Nat} {skipped : Option Bytes} {tail rest : Bytes} {e : Entry}
    (h : (skipped.map fun rest => ((number, Payload.other), rest)) = some (e, rest))
    (hskip : ∀ rest, skipped = some rest → rest.length ≤ tail.length) :
    (writeEntry e).length + rest.length ≤ tail.length := by
  obtain ⟨_, hskipped, heq⟩ := Option.map_eq_some_iff.mp h
  obtain ⟨rfl, rfl⟩ := Prod.mk.inj heq
  rw [writeEntry, List.length_nil, Nat.zero_add]
  exact hskip _ hskipped

theorem length_of_readEntry {limit : Nat} {b rest : Bytes} {e : Entry}
    (h : readEntry limit b = some (e, rest)) :
    (writeEntry e).length + rest.length ≤ b.length := by
  unfold readEntry at h
  split at h
  · cases h
  · next number wireType tail hkey =>
    have hread := length_of_readKey hkey
    split at h
    · obtain ⟨⟨n, _⟩, hn, heq⟩ := Option.map_eq_some_iff.mp h
      obtain ⟨rfl, rfl⟩ := Prod.mk.inj heq
      have hword := length_of_readWord hn
      rw [length_writeEntry_word]
      omega
    · have hother := length_of_other h fun _ => length_of_skip
      omega
    · obtain ⟨⟨s, _⟩, hs, heq⟩ := Option.map_eq_some_iff.mp h
      obtain ⟨rfl, rfl⟩ := Prod.mk.inj heq
      have hsized := length_of_readSized hs
      rw [length_writeEntry_bytes]
      omega
    · have hother := length_of_other h fun _ => length_of_skipGroup
      omega
    · have hother := length_of_other h fun _ => length_of_skip
      omega
    · cases h

theorem length_of_readEntries_go {limit fuel : Nat} {b : Bytes} {entries : List Entry}
    (h : readEntries.go limit fuel b = some entries) :
    (entries.map fun e => (writeEntry e).length).sum ≤ b.length := by
  induction fuel generalizing b entries with
  | zero =>
      cases b with
      | nil =>
          obtain rfl : [] = entries := by simpa [readEntries.go] using h
          exact Nat.zero_le _
      | cons x b => cases h
  | succ fuel ih =>
      cases b with
      | nil =>
          obtain rfl : [] = entries := by simpa [readEntries.go] using h
          exact Nat.zero_le _
      | cons x b =>
          rw [readEntries.go] at h
          split at h
          · cases h
          · next e rest he =>
            obtain ⟨entries', hrest, rfl⟩ := Option.map_eq_some_iff.mp h
            have hentry := length_of_readEntry he
            have hih := ih hrest
            rw [List.map_cons, List.sum_cons]
            omega
          · exact List.cons_ne_nil x b

theorem length_of_readEntries {limit : Nat} {b : Bytes} {entries : List Entry}
    (h : readEntries limit b = some entries) :
    (entries.map fun e => (writeEntry e).length).sum ≤ b.length := length_of_readEntries_go h

end Reading

end PacketRelay.Wire
