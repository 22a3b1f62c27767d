import PacketRelay.Wire.Entry

/-!
# Entries are read back

An entry that was written is taken back with what follows it, and so is a sequence of entries, or
of packed numbers.
-/

namespace PacketRelay.Wire

/-- The entry has a field number, and its length has 64 bits. -/
def Entry.Writable : Entry → Prop
  | (number, .word _) => 0 < number ∧ number < 1 <<< 29
  | (number, .bytes b) => (0 < number ∧ number < 1 <<< 29) ∧ b.length < 1 <<< 64
  | (_, .other) => False

theorem readKey_varint {number wireType : Nat} (hpos : 0 < number) (hlt : number < 1 <<< 29)
    (htype : wireType < 8) (rest : Bytes) :
    readKey (varint (number * 8 + wireType) ++ rest) = some ((number, wireType), rest) := by
  simp only [Nat.one_shiftLeft] at hlt
  have hkey : number * 8 + wireType < 1 <<< 64 := by
    simp only [Nat.one_shiftLeft]
    omega
  have hbounds : number * 8 + wireType < 1 <<< 32 ∧ 8 ≤ number * 8 + wireType := by
    simp only [Nat.one_shiftLeft]
    omega
  have hdiv : (number * 8 + wireType) / 8 = number := by omega
  have hmod : (number * 8 + wireType) % 8 = wireType := by omega
  simp only [readKey, readVarint_varint hkey, if_pos hbounds, hdiv, hmod]

theorem readWord_varint (n : UInt64) (rest : Bytes) :
    readWord (varint n.toNat ++ rest) = some (n, rest) := by
  have hlt : n.toNat < 1 <<< 64 := by simpa using n.toNat_lt
  simp [readWord, readVarint_varint hlt]

theorem readSized_varint {b : Bytes} (hb : b.length < 1 <<< 64) (rest : Bytes) :
    readSized (varint b.length ++ (b ++ rest)) = some (b, rest) := by
  simp [readSized, readVarint_varint hb]

theorem readEntry_writeEntry {e : Entry} (he : e.Writable) (limit : Nat) (rest : Bytes) :
    readEntry limit (writeEntry e ++ rest) = some (e, rest) := by
  obtain ⟨number, payload⟩ := e
  cases payload with
  | word n =>
      have hkey := readKey_varint he.1 he.2 (by decide : 0 < 8) (varint n.toNat ++ rest)
      simp only [Nat.add_zero] at hkey
      simp only [writeEntry, List.append_assoc, readEntry, hkey, readWord_varint, Option.map_some]
  | bytes b =>
      have hkey := readKey_varint he.1.1 he.1.2 (by decide : 2 < 8)
        (varint b.length ++ (b ++ rest))
      simp only [writeEntry, List.append_assoc, readEntry, hkey, readSized_varint he.2,
        Option.map_some]
  | other => exact he.elim

theorem Entry.Writable.writeEntry_ne_nil {e : Entry} (he : e.Writable) : writeEntry e ≠ [] := by
  obtain ⟨number, payload⟩ := e
  cases payload with
  | word n => simp [writeEntry, varint_ne_nil]
  | bytes b => simp [writeEntry, varint_ne_nil]
  | other => exact he.elim

theorem readEntries_go_flatMap {entries : List Entry} (hentries : ∀ e ∈ entries, e.Writable)
    {fuel : Nat} (hfuel : entries.length ≤ fuel) (limit : Nat) :
    readEntries.go limit fuel (entries.flatMap writeEntry) = some entries := by
  induction entries generalizing fuel with
  | nil => rw [List.flatMap_nil, readEntries.go]
  | cons e entries ih =>
      obtain ⟨he, hrest⟩ := List.forall_mem_cons.mp hentries
      obtain _ | fuel := fuel
      · simp at hfuel
      obtain ⟨b, bs, hcons⟩ := List.exists_cons_of_ne_nil he.writeEntry_ne_nil
      have hread := readEntry_writeEntry he limit (entries.flatMap writeEntry)
      have hih := ih hrest (Nat.le_of_succ_le_succ hfuel)
      rw [List.flatMap_cons, hcons, List.cons_append, readEntries.go, ← List.cons_append, ← hcons,
        hread]
      · simp [hih]
      · exact List.cons_ne_nil _ _

theorem length_le_length_flatMap {α : Type} {f : α → Bytes} {l : List α}
    (hf : ∀ a ∈ l, f a ≠ []) : l.length ≤ (l.flatMap f).length := by
  induction l with
  | nil => exact Nat.le_refl 0
  | cons a l ih =>
      obtain ⟨ha, hrest⟩ := List.forall_mem_cons.mp hf
      have hpos := List.length_pos_iff.mpr ha
      have hih := ih hrest
      rw [List.flatMap_cons, List.length_append, List.length_cons]
      omega

/-- Entries that were written are read back. -/
theorem readEntries_flatMap {entries : List Entry} (hentries : ∀ e ∈ entries, e.Writable)
    (limit : Nat) : readEntries limit (entries.flatMap writeEntry) = some entries :=
  readEntries_go_flatMap hentries
    (length_le_length_flatMap fun e he => (hentries e he).writeEntry_ne_nil) limit

theorem readWords_go_flatMap {ns : List UInt64} {fuel : Nat} (hfuel : ns.length ≤ fuel) :
    readWords.go fuel (ns.flatMap fun n => varint n.toNat) = some ns := by
  induction ns generalizing fuel with
  | nil => rw [List.flatMap_nil, readWords.go]
  | cons n ns ih =>
      obtain _ | fuel := fuel
      · simp at hfuel
      obtain ⟨b, bs, hcons⟩ := List.exists_cons_of_ne_nil (varint_ne_nil n.toNat)
      have hread := readWord_varint n (ns.flatMap fun n => varint n.toNat)
      have hih := ih (Nat.le_of_succ_le_succ hfuel)
      rw [List.flatMap_cons, hcons, List.cons_append, readWords.go, ← List.cons_append, ← hcons,
        hread]
      · simp [hih]
      · exact List.cons_ne_nil _ _

/-- Numbers that were written one after another are read back. -/
theorem readWords_flatMap (ns : List UInt64) :
    readWords (ns.flatMap fun n => varint n.toNat) = some ns :=
  readWords_go_flatMap (length_le_length_flatMap fun n _ => varint_ne_nil n.toNat)

end PacketRelay.Wire
