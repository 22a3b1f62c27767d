import Mathlib.Algebra.Ring.Nat
import PacketRelay.Proofs.Schema.Decoding

/-!
# What is read is a message of its type

Whatever bytes a message is read from, its fields stand in the order of the type's slots, each with
values in their own form.  A message that was read is therefore read back from its own encoding.
-/

namespace PacketRelay.Schema

open Wire (Entry Payload)

theorem toNat_extendSign (n : UInt64) :
    (extendSign n).toNat = if n.toNat % 2 ^ 32 < 2 ^ 31 then n.toNat % 2 ^ 32
      else n.toNat % 2 ^ 32 + (2 ^ 64 - 2 ^ 32) := by
  have hlow : (n &&& 0xFFFFFFFF).toNat = n.toNat % 2 ^ 32 := by
    rw [UInt64.toNat_and]
    exact Nat.and_two_pow_sub_one_eq_mod n.toNat 32
  have hlt : n.toNat % 2 ^ 32 < 2 ^ 32 := Nat.mod_lt _ (by decide)
  have hhigh : ((n &&& 0xFFFFFFFF) ||| 0xFFFFFFFF00000000).toNat =
      n.toNat % 2 ^ 32 + (2 ^ 64 - 2 ^ 32) := by
    rw [UInt64.toNat_or, hlow, Nat.or_comm]
    have hdisjoint := Nat.two_pow_add_eq_or_of_lt hlt (2 ^ 32 - 1)
    rw [Nat.add_comm]
    exact hdisjoint.symm
  have hsign : (n &&& 0xFFFFFFFF < 0x80000000) ↔ n.toNat % 2 ^ 32 < 2 ^ 31 := by
    rw [UInt64.lt_iff_toNat_lt, hlow]
    rfl
  unfold extendSign
  simp only [hsign]
  split
  · exact hlow
  · exact hhigh

theorem extendSign_extendSign (n : UInt64) : extendSign (extendSign n) = extendSign n := by
  apply UInt64.toNat_inj.mp
  have houter := toNat_extendSign (extendSign n)
  have hinner := toNat_extendSign n
  grind

theorem Kind.normalize_normalize (kind : Kind) (n : UInt64) :
    kind.normalize (kind.normalize n) = kind.normalize n := by
  cases kind with
  | uint32 =>
      simp only [normalize, UInt64.and_assoc]
      rfl
  | int32 | enumeration => exact extendSign_extendSign n
  | bool =>
      simp only [normalize]
      split <;> rfl
  | _ => rfl

theorem forall₂_of_mapM_eq_some {α β : Type} {f : α → Option β} {l : List α} {l' : List β}
    (h : l.mapM f = some l') : List.Forall₂ (fun a b => f a = some b) l l' := by
  induction l generalizing l' with
  | nil =>
      obtain rfl : [] = l' := by simpa using h
      exact .nil
  | cons a l ih =>
      simp only [List.mapM_cons, Option.bind_eq_bind, Option.bind_eq_some_iff, Option.pure_def,
        Option.some.injEq] at h
      obtain ⟨b, hb, bs, hbs, rfl⟩ := h
      exact .cons hb (ih hbs)

theorem exists_of_mem_mapM {α β : Type} {f : α → Option β} {l : List α} {l' : List β}
    (h : l.mapM f = some l') {b : β} (hb : b ∈ l') : ∃ a ∈ l, f a = some b := by
  have hall := forall₂_of_mapM_eq_some h
  clear h
  induction hall with
  | nil => cases hb
  | @cons a _ l _ ha _ ih =>
      obtain rfl | hb := List.mem_cons.mp hb
      · exact ⟨a, List.mem_cons_self, ha⟩
      · obtain ⟨a', ha', hread⟩ := ih hb
        exact ⟨a', List.mem_cons_of_mem a ha', hread⟩

section Reading

variable {proper : MessageType → Message → Prop} {read : Nested}

/-- Nested messages that are read are proper. -/
def Sound (proper : MessageType → Message → Prop) (read : Nested) : Prop :=
  ∀ t occurrences m, read t occurrences = some m → proper t m

theorem Sound.value (hread : Sound proper read) {kind : Kind} {payloads : List Payload}
    {v : Value} (h : readValue read kind payloads = some (some v)) : v.Conforms proper kind := by
  cases kind with
  | text =>
      simp only [readValue, Option.bind_eq_bind, Option.bind_eq_some_iff, Option.pure_def,
        Option.some.injEq, Option.map_eq_some_iff] at h
      obtain ⟨_, _, s, _, rfl⟩ := h
      exact .text s
  | bytes =>
      simp only [readValue, Option.bind_eq_bind, Option.bind_eq_some_iff, Option.pure_def,
        Option.some.injEq, Option.map_eq_some_iff] at h
      obtain ⟨_, _, b, _, rfl⟩ := h
      exact .bytes b
  | message t =>
      simp only [readValue, Option.bind_eq_bind, Option.bind_eq_some_iff, Option.pure_def] at h
      obtain ⟨occurrences, _, h⟩ := h
      split at h
      · cases h
      · simp only [Option.bind_eq_some_iff, Option.some.injEq] at h
        obtain ⟨m, hm, rfl⟩ := h
        exact .message (hread t occurrences m hm)
  | _ =>
      simp only [readValue, Option.bind_eq_bind, Option.bind_eq_some_iff, Option.pure_def,
        Option.some.injEq, Option.map_eq_some_iff] at h
      obtain ⟨_, _, n, _, rfl⟩ := h
      exact .number rfl (Kind.normalize_normalize _ n)

theorem Sound.elements (hread : Sound proper read) {kind : Kind} {payloads : List Payload}
    {vs : List Value} (hkind : kind.isNumeric = false)
    (h : readRepeated read kind payloads = some vs) : ∀ v ∈ vs, v.Conforms proper kind := by
  intro v hv
  cases kind with
  | text =>
      simp only [readRepeated, Option.bind_eq_bind, Option.bind_eq_some_iff, Option.pure_def,
        Option.some.injEq] at h
      obtain ⟨ss, _, rfl⟩ := h
      obtain ⟨s, _, rfl⟩ := List.mem_map.mp hv
      exact .text s
  | bytes =>
      simp only [readRepeated, Option.bind_eq_bind, Option.bind_eq_some_iff, Option.pure_def,
        Option.some.injEq] at h
      obtain ⟨bs, _, rfl⟩ := h
      obtain ⟨b, _, rfl⟩ := List.mem_map.mp hv
      exact .bytes b
  | message t =>
      obtain ⟨p, _, hp⟩ := exists_of_mem_mapM h hv
      simp only [Option.bind_eq_bind, Option.bind_eq_some_iff, Option.pure_def,
        Option.some.injEq] at hp
      obtain ⟨b, _, m, hm, rfl⟩ := hp
      exact .message (hread t [b] m hm)
  | _ => cases hkind

theorem numbers_of_readRepeated {kind : Kind} {payloads : List Payload} {vs : List Value}
    (hkind : kind.isNumeric = true) (h : readRepeated read kind payloads = some vs) :
    ∃ nss, payloads.mapM readNumbers = some nss ∧
      vs = if (nss.flatten.map kind.normalize).isEmpty then []
        else [.numbers (nss.flatten.map kind.normalize)] := by
  cases kind with
  | text | bytes | message t => cases hkind
  | _ =>
      simp only [readRepeated, Option.bind_eq_bind, Option.bind_eq_some_iff, Option.pure_def,
        Option.some.injEq] at h
      obtain ⟨nss, hnss, rfl⟩ := h
      exact ⟨nss, hnss, by rw [List.isEmpty_map]⟩

/-- What is read of a field that repeats is what such a field can hold. -/
theorem Sound.repeated (hread : Sound proper read) {f : Field} {payloads : List Payload}
    {vs : List Value} (h : readRepeated read f.kind payloads = some vs) :
    (Slot.repeated f).Holds proper (vs.map (f.number, ·)) := by
  cases hkind : f.kind.isNumeric with
  | false => exact .repeated hkind (hread.elements hkind h)
  | true =>
      obtain ⟨nss, _, rfl⟩ := numbers_of_readRepeated hkind h
      have hnormal : ∀ n ∈ nss.flatten.map f.kind.normalize, f.kind.normalize n = n := by
        intro n hn
        obtain ⟨n', _, rfl⟩ := List.mem_map.mp hn
        exact f.kind.normalize_normalize n'
      rw [apply_ite (List.map (f.number, ·))]
      exact .packed hkind hnormal

theorem Sound.run (hread : Sound proper read) {members : List Field} {run : List Entry}
    {number : Nat} {v : Value} (h : readRun read members run = some (some (number, v))) :
    ∃ f ∈ members, f.number = number ∧ v.Conforms proper f.kind := by
  unfold readRun at h
  split at h
  · cases h
  · next n _ _ =>
    split at h
    · cases h
    · next f hf =>
      simp only [Option.bind_eq_bind, Option.bind_eq_some_iff, Option.pure_def, Option.some.injEq,
        Option.map_eq_some_iff, Prod.mk.injEq] at h
      obtain ⟨_, hvalue, v', rfl, rfl, rfl⟩ := h
      have hnumber : f.number = n := by simpa using List.find?_some hf
      exact ⟨f, List.mem_of_find?_eq_some hf, hnumber, hread.value hvalue⟩

/-- What is read for a slot is what the slot can hold. -/
theorem Sound.slot (hread : Sound proper read) {slot : Slot} {entries : List Entry} {part : Message}
    (h : readSlot read entries slot = some part) : slot.Holds proper part := by
  cases slot with
  | single f =>
      simp only [readSlot, Option.bind_eq_bind, Option.bind_eq_some_iff] at h
      obtain ⟨value, hvalue, h⟩ := h
      cases value with
      | none =>
          obtain rfl : [] = part := by simpa using h
          exact .absent f
      | some v =>
          cases hdefault : v.isDefault with
          | true =>
              obtain rfl : [] = part := by simpa [hdefault] using h
              exact .absent f
          | false =>
              obtain rfl : [(f.number, v)] = part := by simpa [hdefault] using h
              exact .present (hread.value hvalue) hdefault
  | repeated f =>
      simp only [readSlot, Option.bind_eq_bind, Option.bind_eq_some_iff, Option.pure_def,
        Option.some.injEq] at h
      obtain ⟨vs, hvs, rfl⟩ := h
      exact hread.repeated hvs
  | choice members =>
      simp only [readSlot, Option.bind_eq_bind, Option.bind_eq_some_iff, Option.pure_def,
        Option.some.injEq] at h
      obtain ⟨runs, hruns, rfl⟩ := h
      cases hlast : runs.getLast?.join with
      | none => exact .undecided members
      | some field =>
          obtain ⟨number, v⟩ := field
          have hmem := List.mem_of_getLast? (Option.join_eq_some_iff.mp hlast)
          obtain ⟨run, _, hrun⟩ := exists_of_mem_mapM hruns hmem
          obtain ⟨f, hf, rfl, hv⟩ := hread.run hrun
          exact .chosen hf hv

theorem fills_of_forall₂ {slots : List Slot} {parts : List Message}
    (h : List.Forall₂ (Slot.Holds proper) slots parts) : Fills proper slots parts.flatten := by
  induction h with
  | nil => exact .nil
  | cons hslot _ ih => exact .cons hslot ih

theorem Sound.merged (hread : Sound proper read) {limit : Nat} {t : MessageType}
    {occurrences : List Bytes} {m : Message} (h : readMerged limit read t occurrences = some m) :
    Fills proper t.slots m := by
  simp only [readMerged, Option.bind_eq_bind, Option.bind_eq_some_iff, Option.pure_def,
    Option.some.injEq] at h
  obtain ⟨entries, _, parts, hparts, rfl⟩ := h
  exact fills_of_forall₂ ((forall₂_of_mapM_eq_some hparts).imp fun _ _ hpart => hread.slot hpart)

end Reading

theorem sound_readMessage (depth : Nat) : Sound (Message.Conforms depth) (readMessage depth) := by
  induction depth with
  | zero =>
      intro t occurrences m h
      have hnone : Sound (fun _ _ => False) fun _ _ => none := fun t occurrences m h => nomatch h
      exact hnone.merged h
  | succ depth ih =>
      intro t occurrences m h
      exact ih.merged h

/-- What is decoded as a message of a type is one. -/
theorem conforms_of_decode {t : MessageType} {b : Bytes} {m : Message} (h : decode t b = some m) :
    m.Conforms nestingLimit t :=
  sound_readMessage nestingLimit t [b] m h

end PacketRelay.Schema
