import Mathlib.Algebra.BigOperators.Ring.List
import Mathlib.Algebra.Order.Group.Nat
import Mathlib.Algebra.Ring.Nat
import Mathlib.Data.List.SplitBy
import PacketRelay.Proofs.Schema.Reading
import PacketRelay.Proofs.Wire.Length

/-!
# How long a message is that was read

A field that was read is written with at most twice the bytes that it was read from: a negative
number of 32 bits may grow from five bytes to ten, and nothing grows by more.
-/

namespace PacketRelay.Schema

open Wire (Entry Payload varint writeEntry)

theorem length_varint_normalize_le (kind : Kind) (n : UInt64) :
    (varint (kind.normalize n).toNat).length ≤ 2 * (varint n.toNat).length := by
  have hpos := Wire.length_varint_pos n.toNat
  have hle (h : (kind.normalize n).toNat ≤ n.toNat) :
      (varint (kind.normalize n).toNat).length ≤ 2 * (varint n.toNat).length := by
    have hmono := Wire.length_varint_mono h
    omega
  have hsigned (h : kind.normalize n = extendSign n) :
      (varint (kind.normalize n).toNat).length ≤ 2 * (varint n.toNat).length := by
    have hvalue := toNat_extendSign n
    rw [← h] at hvalue
    split at hvalue
    · exact hle (by rw [hvalue]; exact Nat.mod_le _ _)
    · next hlow =>
      -- at least 2 ^ 31 was read, which takes five bytes
      have hread : ¬ (varint n.toNat).length ≤ 4 := by
        rw [Wire.length_varint_le_iff (by decide)]
        omega
      have hwritten : (varint (kind.normalize n).toNat).length ≤ 10 :=
        Wire.length_varint_le (Nat.lt_trans (UInt64.toNat_lt _) (by decide))
      omega
  cases kind with
  | uint32 => exact hle (by rw [Kind.normalize, UInt64.toNat_and]; exact Nat.and_le_left)
  | int32 | enumeration => exact hsigned rfl
  | bool =>
      refine hle ?_
      simp only [Kind.normalize]
      split
      · exact Nat.zero_le _
      · next hne =>
        have hne' : n.toNat ≠ 0 := fun h => hne (UInt64.toNat_inj.mp h)
        have hone : (1 : UInt64).toNat = 1 := rfl
        omega
  | _ => exact hle (Nat.le_refl _)

theorem ofText_of_toText? {b : Bytes} {s : String} (h : Bytes.toText? b = some s) :
    Bytes.ofText s = b := by
  unfold Bytes.toText? String.fromUTF8? at h
  split at h
  · obtain rfl := Option.some.inj h
    rw [Bytes.ofText_eq]
    rfl
  · cases h

/-- The bytes of the entries of a field. -/
def cost (field : Nat) (payloads : List Payload) : Nat :=
  (payloads.map fun p => (writeEntry (field, p)).length).sum

/-- The bytes of entries. -/
def total (entries : List Entry) : Nat := (entries.map fun e => (writeEntry e).length).sum

theorem Message.length_encode (m : Message) : m.encode.length = total m.entries := by
  rw [encode_eq_flatMap, List.length_flatMap, total]

theorem Message.length_encode_append (m m' : Message) :
    (m ++ m').encode.length = m.encode.length + m'.encode.length := by
  simp only [length_encode, total, entries_append, List.map_append, List.sum_append]

theorem length_encode_map (field : Nat) (vs : List Value) :
    (Message.encode (vs.map (field, ·))).length = cost field (vs.map Value.payload) := by
  rw [Message.length_encode, total, Message.entries, cost, List.map_map, List.map_map, List.map_map]
  rfl

/-- Nested messages that are read are written with at most twice their bytes. -/
def Doubles (read : Nested) : Prop :=
  ∀ t occurrences m, read t occurrences = some m →
    m.encode.length ≤ 2 * (occurrences.map List.length).sum

theorem payload_eq_of_readNumber {p : Payload} {n : UInt64} (h : readNumber p = some n) :
    p = .word n := by
  cases p with
  | word n' => rw [Option.some.inj h]
  | _ => cases h

theorem payload_eq_of_readBytes {p : Payload} {b : Bytes} (h : readBytes p = some b) :
    p = .bytes b := by
  cases p with
  | bytes b' => rw [Option.some.inj h]
  | _ => cases h

theorem payload_eq_of_readText {p : Payload} {s : String} (h : readText p = some s) :
    p = (Value.text s).payload := by
  obtain ⟨b, hb, hs⟩ := Option.bind_eq_some_iff.mp h
  rw [payload_eq_of_readBytes hb, Value.payload, ofText_of_toText? hs]

theorem eq_map_of_mapM {α : Type} {f : Payload → Option α} {g : α → Payload} {payloads : List Payload}
    {as : List α} (hf : ∀ {p a}, f p = some a → p = g a) (h : payloads.mapM f = some as) :
    payloads = as.map g := by
  have hall := forall₂_of_mapM_eq_some h
  clear h
  induction hall with
  | nil => rfl
  | cons hp _ ih => rw [List.map_cons, ← ih, hf hp]

section Reading

variable {read : Nested} {field : Nat} {payloads : List Payload}

theorem length_le_cost {p : Payload} (hp : p ∈ payloads) :
    (writeEntry (field, p)).length ≤ 2 * cost field payloads := by
  have hle : (writeEntry (field, p)).length ≤ cost field payloads :=
    List.le_sum_of_mem (List.mem_map.mpr ⟨p, hp, rfl⟩)
  omega

theorem Doubles.message (hread : Doubles read) {t : MessageType} {bs : List Bytes} {m : Message}
    (hbs : bs ≠ []) (h : read t bs = some m) :
    (writeEntry (field, .bytes m.encode)).length ≤ 2 * cost field (bs.map Payload.bytes) := by
  have hsum : (bs.map fun b => 2 * b.length).sum = 2 * (bs.map List.length).sum :=
    List.sum_map_mul_left bs List.length 2
  have hle : m.encode.length ≤ (bs.map fun b => 2 * b.length).sum := hsum ▸ hread t bs m h
  have hkey := Wire.length_varint_pos (field * 8)
  have hpaid : (varint (field * 8)).length + ((varint (bs.map fun b => 2 * b.length).sum).length +
      (bs.map fun b => 2 * b.length).sum) ≤
        2 * (bs.map fun b => (writeEntry (field, .bytes b)).length).sum := by
    refine Wire.length_varint_sum_le ?_ (by simpa using hbs)
    rw [List.forall₂_map_left_iff, List.forall₂_map_right_iff, List.forall₂_same]
    intro b _
    have hdouble := Wire.length_varint_double_le b.length
    have hpos := Wire.length_varint_pos b.length
    rw [Wire.length_writeEntry_bytes]
    omega
  have hmono := Wire.length_varint_mono hle
  rw [Wire.length_writeEntry_bytes, cost, List.map_map]
  exact Nat.le_trans (Nat.add_le_add_left (Nat.add_le_add hmono hle) _) hpaid

theorem Doubles.value (hread : Doubles read) {kind : Kind} {v : Value}
    (h : readValue read kind payloads = some (some v)) :
    (writeEntry (field, v.payload)).length ≤ 2 * cost field payloads := by
  cases kind with
  | text =>
      simp only [readValue, Option.bind_eq_bind, Option.bind_eq_some_iff, Option.pure_def,
        Option.some.injEq, Option.map_eq_some_iff] at h
      obtain ⟨ss, hss, s, hlast, rfl⟩ := h
      obtain ⟨p, hp, hs⟩ := exists_of_mem_mapM hss (List.mem_of_getLast? hlast)
      rw [← payload_eq_of_readText hs]
      exact length_le_cost hp
  | bytes =>
      simp only [readValue, Option.bind_eq_bind, Option.bind_eq_some_iff, Option.pure_def,
        Option.some.injEq, Option.map_eq_some_iff] at h
      obtain ⟨bs, hbs, b, hlast, rfl⟩ := h
      obtain ⟨p, hp, hb⟩ := exists_of_mem_mapM hbs (List.mem_of_getLast? hlast)
      rw [Value.payload, ← payload_eq_of_readBytes hb]
      exact length_le_cost hp
  | message t =>
      simp only [readValue, Option.bind_eq_bind, Option.bind_eq_some_iff, Option.pure_def] at h
      obtain ⟨bs, hbs, h⟩ := h
      split at h
      · cases h
      · next hne =>
        simp only [Option.bind_eq_some_iff, Option.some.injEq] at h
        obtain ⟨m, hm, rfl⟩ := h
        rw [Value.payload, eq_map_of_mapM payload_eq_of_readBytes hbs]
        exact hread.message (fun hnil => hne (by rw [hnil]; rfl)) hm
  | _ =>
      simp only [readValue, Option.bind_eq_bind, Option.bind_eq_some_iff, Option.pure_def,
        Option.some.injEq, Option.map_eq_some_iff] at h
      obtain ⟨ns, hns, n, hlast, rfl⟩ := h
      obtain ⟨p, hp, hn⟩ := exists_of_mem_mapM hns (List.mem_of_getLast? hlast)
      obtain rfl := payload_eq_of_readNumber hn
      have hcost : (writeEntry (field, .word n)).length ≤ cost field payloads :=
        List.le_sum_of_mem (List.mem_map.mpr ⟨_, hp, rfl⟩)
      refine Nat.le_trans ?_ (Nat.mul_le_mul_left 2 hcost)
      rw [Value.payload, Wire.length_writeEntry_word, Wire.length_writeEntry_word]
      exact Nat.le_trans (Nat.add_le_add_left (length_varint_normalize_le _ n) _) (by omega)

/-- The numbers of one payload are written with at most twice its bytes. -/
theorem length_numbers_le (kind : Kind) {p : Payload} {ns : List UInt64}
    (h : readNumbers p = some ns) :
    let size := (ns.map fun n => (varint (kind.normalize n).toNat).length).sum
    (varint (field * 8)).length + ((varint size).length + size) ≤
      2 * (writeEntry (field, p)).length := by
  intro size
  have hkey := Wire.length_varint_pos (field * 8)
  have hsize : size ≤ 2 * (ns.map fun n => (varint n.toNat).length).sum := by
    rw [← List.sum_map_mul_left]
    exact List.sum_le_sum fun n _ => length_varint_normalize_le kind n
  cases p with
  | word n =>
      obtain rfl : [n] = ns := Option.some.inj h
      have hsmall : size ≤ 10 :=
        Wire.length_varint_le (Nat.lt_trans (UInt64.toNat_lt _) (by decide))
      have hone : (varint size).length ≤ 1 :=
        (Wire.length_varint_le_iff (by decide)).mpr (by omega)
      rw [List.map_singleton, List.sum_singleton] at hsize
      rw [Wire.length_writeEntry_word]
      omega
  | bytes b =>
      have hread := Wire.length_of_readWords h
      have hle : size ≤ 2 * b.length := by omega
      have hmono := Wire.length_varint_mono hle
      have hdouble := Wire.length_varint_double_le b.length
      have hpos := Wire.length_varint_pos b.length
      rw [Wire.length_writeEntry_bytes]
      omega
  | other => cases h

theorem length_packed_le {kind : Kind} {nss : List (List UInt64)}
    (h : payloads.mapM readNumbers = some nss) (hne : nss ≠ []) :
    (writeEntry (field, (Value.numbers (nss.flatten.map kind.normalize)).payload)).length ≤
      2 * cost field payloads := by
  let size (ns : List UInt64) : Nat :=
    (ns.map fun n => (varint (kind.normalize n).toNat).length).sum
  have hsize : ((nss.flatten.map kind.normalize).flatMap fun n => varint n.toNat).length =
      (nss.map size).sum := by
    rw [List.length_flatMap, List.map_map, List.map_flatten, List.sum_flatten, List.map_map]
    rfl
  rw [Value.payload, Wire.length_writeEntry_bytes, hsize]
  refine Wire.length_varint_sum_le ?_ (by simpa using hne)
  rw [List.forall₂_map_left_iff, List.forall₂_map_right_iff]
  exact (forall₂_of_mapM_eq_some h).imp fun p ns hns => length_numbers_le kind hns

theorem cost_le_of_forall₂ {vs : List Value} (h : List.Forall₂ (fun p (v : Value) =>
    (writeEntry (field, v.payload)).length ≤ 2 * (writeEntry (field, p)).length) payloads vs) :
    cost field (vs.map Value.payload) ≤ 2 * cost field payloads := by
  induction h with
  | nil => exact Nat.le_refl 0
  | cons hp _ ih =>
      simp only [cost, List.map_cons, List.sum_cons] at ih ⊢
      omega

theorem Doubles.repeated (hread : Doubles read) {kind : Kind} {vs : List Value}
    (h : readRepeated read kind payloads = some vs) :
    cost field (vs.map Value.payload) ≤ 2 * cost field payloads := by
  cases kind with
  | text =>
      simp only [readRepeated, Option.bind_eq_bind, Option.bind_eq_some_iff, Option.pure_def,
        Option.some.injEq] at h
      obtain ⟨ss, hss, rfl⟩ := h
      rw [eq_map_of_mapM payload_eq_of_readText hss, List.map_map]
      exact Nat.le_mul_of_pos_left _ (by decide)
  | bytes =>
      simp only [readRepeated, Option.bind_eq_bind, Option.bind_eq_some_iff, Option.pure_def,
        Option.some.injEq] at h
      obtain ⟨bs, hbs, rfl⟩ := h
      rw [eq_map_of_mapM payload_eq_of_readBytes hbs, List.map_map]
      exact Nat.le_mul_of_pos_left _ (by decide)
  | message t =>
      refine cost_le_of_forall₂ ((forall₂_of_mapM_eq_some h).imp fun p v hp => ?_)
      simp only [Option.bind_eq_bind, Option.bind_eq_some_iff, Option.pure_def,
        Option.some.injEq] at hp
      obtain ⟨b, hb, m, hm, rfl⟩ := hp
      rw [payload_eq_of_readBytes hb]
      exact hread.message (List.cons_ne_nil b []) hm
  | _ =>
      obtain ⟨nss, hnss, rfl⟩ := numbers_of_readRepeated rfl h
      split
      · exact Nat.zero_le _
      · next hne =>
        refine length_packed_le hnss ?_
        rintro rfl
        exact hne rfl

theorem total_filter_add_le (entries : List Entry) {P Q : Nat → Bool}
    (hdisjoint : ∀ n, P n = true → Q n = false) :
    total (entries.filter (P ·.1)) + total (entries.filter (Q ·.1)) ≤
      total (entries.filter fun e => P e.1 || Q e.1) := by
  induction entries with
  | nil => exact Nat.le_refl 0
  | cons e entries ih =>
      simp only [total] at ih ⊢
      cases hP : P e.1 with
      | true =>
          simp only [List.filter_cons, hP, hdisjoint e.1 hP, Bool.true_or, if_true,
            Bool.false_eq_true, if_false, List.map_cons, List.sum_cons]
          omega
      | false =>
          cases hQ : Q e.1 with
          | true =>
              simp only [List.filter_cons, hP, hQ, Bool.or_true, if_true, Bool.false_eq_true,
                if_false, List.map_cons, List.sum_cons]
              omega
          | false =>
              simp only [List.filter_cons, hP, hQ, Bool.or_false, Bool.false_eq_true, if_false]
              exact ih

theorem total_le_of_sublist {entries entries' : List Entry} (h : entries.Sublist entries') :
    total entries ≤ total entries' :=
  (h.map _).sum_le_sum fun _ _ => Nat.zero_le _

theorem cost_payloadsOf (number : Nat) (entries : List Entry) :
    cost number (payloadsOf number entries) = total (entries.filter (·.1 == number)) := by
  rw [cost, payloadsOf, total, List.map_map]
  refine congrArg List.sum (List.map_congr_left fun e he => ?_)
  have hnumber : e.1 = number := by simpa using (List.mem_filter.mp he).2
  rw [← hnumber]
  rfl

/-- All entries of a run have the number of the first one. -/
theorem cost_run {e : Entry} {run : List Entry}
    (hrun : (e :: run).IsChain fun a b => (a.1 == b.1) = true) :
    cost e.1 ((e :: run).map (·.2)) = total (e :: run) := by
  have htrans : (e :: run).Pairwise fun a b => a.1 = b.1 :=
    List.isChain_iff_pairwise.mp (hrun.imp fun _ _ heq => eq_of_beq heq)
  rw [cost, total, List.map_map]
  refine congrArg List.sum (List.map_congr_left fun e' he' => ?_)
  have hnumber : e.1 = e'.1 := by
    obtain rfl | he' := List.mem_cons.mp he'
    · rfl
    · exact (List.pairwise_cons.mp htrans).1 e' he'
  rw [hnumber]
  rfl

theorem Doubles.run (hread : Doubles read) {members : List Field} {run : List Entry}
    {number : Nat} {v : Value} (hrun : run.IsChain fun a b => (a.1 == b.1) = true)
    (h : readRun read members run = some (some (number, v))) :
    (writeEntry (number, v.payload)).length ≤ 2 * total run := by
  cases run with
  | nil => cases h
  | cons e run =>
      rw [← cost_run hrun]
      simp only [readRun] at h
      split at h
      · cases h
      · simp only [Option.bind_eq_bind, Option.bind_eq_some_iff, Option.pure_def,
          Option.some.injEq, Option.map_eq_some_iff, Prod.mk.injEq] at h
        obtain ⟨_, hvalue, v', rfl, rfl, rfl⟩ := h
        exact hread.value hvalue

theorem Doubles.slot (hread : Doubles read) {slot : Slot} {entries : List Entry} {part : Message}
    (h : readSlot read entries slot = some part) {P : Nat → Bool}
    (hP : ∀ n, P n = true ↔ n ∈ slot.numbers) :
    part.encode.length ≤ 2 * total (entries.filter (P ·.1)) := by
  have hone {f : Field} (hslot : slot.numbers = [f.number]) :
      total (entries.filter (P ·.1)) = cost f.number (payloadsOf f.number entries) := by
    rw [cost_payloadsOf]
    refine congrArg total (List.filter_congr fun e _ => Bool.eq_iff_iff.mpr ?_)
    rw [hP, hslot, List.mem_singleton, beq_iff_eq]
  cases slot with
  | single f =>
      rw [hone rfl]
      simp only [readSlot, Option.bind_eq_bind, Option.bind_eq_some_iff] at h
      obtain ⟨value, hvalue, h⟩ := h
      cases value with
      | none =>
          obtain rfl : [] = part := by simpa using h
          exact Nat.zero_le _
      | some v =>
          cases hdefault : v.isDefault with
          | true =>
              obtain rfl : [] = part := by simpa [hdefault] using h
              exact Nat.zero_le _
          | false =>
              obtain rfl : [(f.number, v)] = part := by simpa [hdefault] using h
              rw [Message.encode_cons, Message.encode, List.append_nil]
              exact hread.value hvalue
  | repeated f =>
      rw [hone rfl]
      simp only [readSlot, Option.bind_eq_bind, Option.bind_eq_some_iff, Option.pure_def,
        Option.some.injEq] at h
      obtain ⟨vs, hvs, rfl⟩ := h
      rw [length_encode_map]
      exact hread.repeated hvs
  | choice members =>
      have hown : (entries.filter (P ·.1)) = entries.filter fun e => members.any (·.number == e.1) :=
        List.filter_congr fun e _ => Bool.eq_iff_iff.mpr <| by
          simp [hP, Slot.numbers, Slot.fields]
      rw [hown]
      simp only [readSlot, Option.bind_eq_bind, Option.bind_eq_some_iff, Option.pure_def,
        Option.some.injEq] at h
      obtain ⟨runs, hruns, rfl⟩ := h
      cases hlast : runs.getLast?.join with
      | none => exact Nat.zero_le _
      | some field =>
          obtain ⟨number, v⟩ := field
          have hmem := List.mem_of_getLast? (Option.join_eq_some_iff.mp hlast)
          obtain ⟨run, hrun, hvalue⟩ := exists_of_mem_mapM hruns hmem
          have hsublist := List.sublist_flatten_of_mem hrun
          rw [List.flatten_splitBy] at hsublist
          have hle := hread.run (List.isChain_of_mem_splitBy hrun) hvalue
          rw [Option.toList_some, Message.encode_cons, Message.encode, List.append_nil]
          exact Nat.le_trans hle (Nat.mul_le_mul_left 2 (total_le_of_sublist hsublist))

/-- Slots with different field numbers are read from different entries. -/
theorem Doubles.slots (hread : Doubles read) {slots : List Slot}
    (hnodup : (slots.flatMap Slot.numbers).Nodup) {entries : List Entry} {parts : List Message}
    (h : List.Forall₂ (fun slot part => readSlot read entries slot = some part) slots parts) :
    (Message.encode parts.flatten).length ≤
      2 * total (entries.filter fun e => (slots.flatMap Slot.numbers).contains e.1) := by
  induction h with
  | nil => exact Nat.zero_le _
  | @cons slot part slots parts hslot _ ih =>
      rw [List.flatMap_cons, List.nodup_append] at hnodup
      obtain ⟨_, hslots, hdisjoint⟩ := hnodup
      have hhead := hread.slot hslot (P := slot.numbers.contains) fun n => List.contains_iff_mem
      have htail := ih hslots
      have hadd := total_filter_add_le entries (P := slot.numbers.contains)
        (Q := (slots.flatMap Slot.numbers).contains) fun n hn => by
          rw [← Bool.not_eq_true, List.contains_iff_mem]
          exact fun hn' => hdisjoint n (List.contains_iff_mem.mp hn) n hn' rfl
      have hlen := Message.length_encode_append part parts.flatten
      simp only [List.flatten_cons, List.flatMap_cons, List.contains_append]
      omega

theorem total_flatten_le {limit : Nat} {occurrences : List Bytes} {entries : List (List Entry)}
    (h : List.Forall₂ (fun b es => Wire.readEntries limit b = some es) occurrences entries) :
    total entries.flatten ≤ (occurrences.map List.length).sum := by
  induction h with
  | nil => exact Nat.le_refl 0
  | @cons b es _ _ hes _ ih =>
      have hhead : total es ≤ b.length := Wire.length_of_readEntries hes
      simp only [total, List.flatten_cons, List.map_append, List.sum_append, List.map_cons,
        List.sum_cons] at ih hhead ⊢
      omega

theorem Doubles.merged (hread : Doubles read) {limit : Nat} : Doubles (readMerged limit read) := by
  intro t occurrences m h
  simp only [readMerged, Option.bind_eq_bind, Option.bind_eq_some_iff, Option.pure_def,
    Option.some.injEq] at h
  obtain ⟨entries, hentries, parts, hparts, rfl⟩ := h
  have hslots := hread.slots t.nodup_numbers (forall₂_of_mapM_eq_some hparts)
  have hsublist := total_le_of_sublist (List.filter_sublist (l := entries.flatten)
    (p := fun e => (t.slots.flatMap Slot.numbers).contains e.1))
  have hread := total_flatten_le (forall₂_of_mapM_eq_some hentries)
  omega

end Reading

theorem doubles_readMessage (depth : Nat) : Doubles (readMessage depth) := by
  induction depth with
  | zero =>
      have hnone : Doubles fun _ _ => none := fun t occurrences m h => nomatch h
      exact hnone.merged
  | succ depth ih => exact ih.merged

/-- A message that was decoded is written with at most twice the bytes it was decoded from. -/
theorem length_encode_of_decode {t : MessageType} {b : Bytes} {m : Message}
    (h : decode t b = some m) : m.encode.length ≤ 2 * b.length := by
  have hlen := doubles_readMessage nestingLimit t [b] m h
  simpa using hlen

end PacketRelay.Schema
