import Mathlib.Data.List.Nodup
import PacketRelay.Proofs.Bytes
import PacketRelay.Proofs.Schema.Encoding
import PacketRelay.Proofs.Wire.Entry
import PacketRelay.Schema.Decode

/-!
# Messages are read back

A message conforms to a type if its fields stand in the order of the type's slots, each with values
of its kind.  Such a message is read back from its encoding, as far as lengths have 64 bits.
-/

namespace PacketRelay.Schema

open Wire (Entry)

/-- Fields of these kinds hold numbers. -/
def Kind.isNumeric : Kind → Bool
  | .text | .bytes | .message _ => false
  | _ => true

/-- The value is of a kind: a number in the kind's own form, or a nested message that is proper. -/
inductive Value.Conforms (proper : MessageType → Message → Prop) : Kind → Value → Prop where
  | number {kind : Kind} {n : UInt64} :
    kind.isNumeric = true → kind.normalize n = n → Conforms proper kind (.number n)
  | text (s : String) : Conforms proper .text (.text s)
  | bytes (b : Bytes) : Conforms proper .bytes (.bytes b)
  | message {t : MessageType} {m : Message} :
    proper t m → Conforms proper (.message t) (.message m)

/-- The fields are what a slot can contribute to a message. -/
inductive Slot.Holds (proper : MessageType → Message → Prop) : Slot → Message → Prop where
  | absent (f : Field) : Holds proper (.single f) []
  | present {f : Field} {v : Value} :
    v.Conforms proper f.kind → v.isDefault = false → Holds proper (.single f) [(f.number, v)]
  | repeated {f : Field} {vs : List Value} :
    f.kind.isNumeric = false → (∀ v ∈ vs, v.Conforms proper f.kind) →
      Holds proper (.repeated f) (vs.map (f.number, ·))
  | packed {f : Field} {ns : List UInt64} :
    f.kind.isNumeric = true → (∀ n ∈ ns, f.kind.normalize n = n) →
      Holds proper (.repeated f) (if ns.isEmpty then [] else [(f.number, .numbers ns)])
  | undecided (members : List Field) : Holds proper (.choice members) []
  | chosen {members : List Field} {f : Field} {v : Value} :
    f ∈ members → v.Conforms proper f.kind → Holds proper (.choice members) [(f.number, v)]

/-- The fields of a message are those of the slots one after another. -/
inductive Fills (proper : MessageType → Message → Prop) : List Slot → Message → Prop where
  | nil : Fills proper [] []
  | cons {slot : Slot} {slots : List Slot} {part rest : Message} :
    slot.Holds proper part → Fills proper slots rest → Fills proper (slot :: slots) (part ++ rest)

/-- The message is one of type `t`, in which messages nest no deeper than `depth`. -/
def Message.Conforms : (depth : Nat) → MessageType → Message → Prop
  | 0, t, m => Fills (fun _ _ => False) t.slots m
  | depth + 1, t, m => Fills (Conforms depth) t.slots m

/-- A message whose slots hold no messages is proper at every depth. -/
theorem Message.conforms_of_fills {t : MessageType} {m : Message}
    (hm : ∀ proper, Fills proper t.slots m) (depth : Nat) : m.Conforms depth t := by
  cases depth with
  | zero => exact hm _
  | succ depth => exact hm _

/-- Byte strings have lengths of 64 bits. -/
def Message.Sized (m : Message) : Prop :=
  ∀ e ∈ m, ∀ b, e.2.payload = .bytes b → b.length < 1 <<< 64

theorem MessageType.nodup_numbers (t : MessageType) : (t.slots.flatMap Slot.numbers).Nodup := by
  cases t <;> decide

theorem MessageType.number_bounds (t : MessageType) :
    ∀ n ∈ t.slots.flatMap Slot.numbers, 0 < n ∧ n < 1 <<< 29 := by
  cases t <;> decide

namespace Message

theorem encode_eq_flatMap (m : Message) : m.encode = m.entries.flatMap Wire.writeEntry := by
  induction m with
  | nil => rw [encode, entries_nil, List.flatMap_nil]
  | cons e m ih =>
      obtain ⟨field, v⟩ := e
      rw [encode_cons, entries_cons, List.flatMap_cons, ih]

theorem entries_append (m m' : Message) : (m ++ m').entries = m.entries ++ m'.entries :=
  List.map_append

theorem sized_of_length {m : Message} (hm : m.encode.length < 1 <<< 64) : m.Sized := by
  induction m with
  | nil =>
      intro e he
      cases he
  | cons e m ih =>
      obtain ⟨field, v⟩ := e
      rw [encode_cons, List.length_append] at hm
      have hrest := ih (by omega)
      intro e he b hb
      obtain rfl | he := List.mem_cons.mp he
      · have hwrite : b.length ≤ (Wire.writeEntry (field, v.payload)).length := by
          rw [show v.payload = .bytes b from hb, Wire.writeEntry, List.length_append,
            List.length_append]
          omega
        omega
      · exact hrest e he b hb

theorem Sized.left {m m' : Message} (h : (m ++ m').Sized) : m.Sized :=
  fun e he => h e (List.mem_append_left m' he)

theorem Sized.right {m m' : Message} (h : (m ++ m').Sized) : m'.Sized :=
  fun e he => h e (List.mem_append_right m he)

/-- Entries of fields with numbers and with short byte strings can be written. -/
theorem Sized.writable {m : Message} (hm : m.Sized)
    (hnumbers : ∀ e ∈ m, 0 < e.1 ∧ e.1 < 1 <<< 29) : ∀ e ∈ m.entries, e.Writable := by
  intro e he
  obtain ⟨⟨field, v⟩, hmem, rfl⟩ := List.mem_map.mp he
  have hnumber := hnumbers _ hmem
  have hsize := hm _ hmem
  cases hv : v.payload with
  | word n => exact hnumber
  | bytes b => exact ⟨hnumber, hsize b hv⟩
  | other => exact absurd hv v.payload_ne_other

end Message

theorem mapM_map_eq_some {α β : Type} {f : α → β} {g : β → Option α} {l : List α}
    (hl : ∀ a ∈ l, g (f a) = some a) : (l.map f).mapM g = some l := by
  induction l with
  | nil => rfl
  | cons a l ih =>
      obtain ⟨ha, hrest⟩ := List.forall_mem_cons.mp hl
      rw [List.map_cons, List.mapM_cons, ha, ih hrest]
      rfl

theorem exists_eq_map {α β : Type} {g : α → β} {l : List β} (hl : ∀ b ∈ l, ∃ a, b = g a) :
    ∃ l' : List α, l = l'.map g := by
  induction l with
  | nil => exact ⟨[], rfl⟩
  | cons b l ih =>
      obtain ⟨⟨a, rfl⟩, hrest⟩ := List.forall_mem_cons.mp hl
      obtain ⟨l', rfl⟩ := ih hrest
      exact ⟨a :: l', rfl⟩

section Reading

variable {proper : MessageType → Message → Prop} {read : Nested}

/-- Proper messages are read back, as nested ones. -/
def Reads (proper : MessageType → Message → Prop) (read : Nested) : Prop :=
  ∀ t m, proper t m → m.encode.length < 1 <<< 64 → read t [m.encode] = some m

theorem readValue_nil (kind : Kind) : readValue read kind [] = some none := by
  cases kind <;> rfl

theorem readRepeated_nil (kind : Kind) : readRepeated read kind [] = some [] := by
  cases kind <;> rfl

theorem Reads.value (hread : Reads proper read) {kind : Kind} {v : Value}
    (hv : v.Conforms proper kind) (hsize : ∀ b, v.payload = .bytes b → b.length < 1 <<< 64) :
    readValue read kind [v.payload] = some (some v) := by
  cases hv with
  | @number kind n hnumeric hnormal =>
      cases kind with
      | text | bytes | message t => cases hnumeric
      | _ => simp [readValue, readNumber, Value.payload, hnormal]
  | text s => simp [readValue, readText, readBytes, Value.payload, Bytes.toText?_ofText]
  | bytes b => simp [readValue, readBytes, Value.payload]
  | @message t m hm =>
      have hlen : m.encode.length < 1 <<< 64 := hsize m.encode rfl
      simp [readValue, readBytes, Value.payload, hread t m hm hlen]

theorem Reads.repeated (hread : Reads proper read) {kind : Kind} {vs : List Value}
    (hnumeric : kind.isNumeric = false) (hvs : ∀ v ∈ vs, v.Conforms proper kind)
    (hsize : ∀ v ∈ vs, ∀ b, v.payload = .bytes b → b.length < 1 <<< 64) :
    readRepeated read kind (vs.map Value.payload) = some vs := by
  cases kind with
  | text =>
      obtain ⟨ss, rfl⟩ : ∃ ss : List String, vs = ss.map Value.text := exists_eq_map fun v hv => by
        cases hvs v hv with
        | number h _ => cases h
        | text s => exact ⟨s, rfl⟩
      have hss : (ss.map fun s => (Value.text s).payload).mapM readText = some ss :=
        mapM_map_eq_some fun s _ => by simp [readText, readBytes, Value.payload, Bytes.toText?_ofText]
      simp [readRepeated, Function.comp_def, hss]
  | bytes =>
      obtain ⟨bs, rfl⟩ : ∃ bs : List Bytes, vs = bs.map Value.bytes := exists_eq_map fun v hv => by
        cases hvs v hv with
        | number h _ => cases h
        | bytes b => exact ⟨b, rfl⟩
      have hbs : (bs.map fun b => (Value.bytes b).payload).mapM readBytes = some bs :=
        mapM_map_eq_some fun b _ => by simp [readBytes, Value.payload]
      simp [readRepeated, Function.comp_def, hbs]
  | message t =>
      refine mapM_map_eq_some fun v hv => ?_
      cases hvs v hv with
      | number h _ => cases h
      | @message _ m hm =>
          have hlen : m.encode.length < 1 <<< 64 := hsize _ hv m.encode rfl
          simp [readBytes, Value.payload, hread t m hm hlen]
  | _ => cases hnumeric

theorem readRepeated_packed {kind : Kind} {ns : List UInt64} (hnumeric : kind.isNumeric = true)
    (hns : ∀ n ∈ ns, kind.normalize n = n) :
    readRepeated read kind [(Value.numbers ns).payload] =
      some (if ns.isEmpty then [] else [.numbers ns]) := by
  have hwords : [(Value.numbers ns).payload].mapM readNumbers = some [ns] := by
    simp [readNumbers, Value.payload, Wire.readWords_flatMap]
  have hmap : ns.map kind.normalize = ns := by rw [List.map_congr_left hns, List.map_id']
  cases kind with
  | text | bytes | message t => cases hnumeric
  | _ => simp [readRepeated, hwords, hmap]

/-- What a slot holds is read from the entries of its fields. -/
theorem Reads.slot (hread : Reads proper read) {slot : Slot} {part : Message}
    (hholds : slot.Holds proper part) (hnodup : slot.numbers.Nodup) (hsize : part.Sized)
    {entries : List Entry} (hentries : ∀ P : Nat → Bool, (∀ n, P n = true ↔ n ∈ slot.numbers) →
      entries.filter (fun e => P e.1) = part.entries) :
    readSlot read entries slot = some part := by
  have hone {f : Field} (hslot : slot.numbers = [f.number]) :
      payloadsOf f.number entries = part.map fun e => e.2.payload := by
    have hfilter := hentries (fun n => n == f.number) fun n => by simp [hslot]
    rw [payloadsOf, hfilter, Message.entries, List.map_map]
    rfl
  have hmembers (members : List Field) (n : Nat) :
      members.any (·.number == n) = true ↔ n ∈ (Slot.choice members).numbers := by
    simp [Slot.numbers, Slot.fields]
  cases hholds with
  | absent f =>
      have hpayloads : payloadsOf f.number entries = [] := hone rfl
      simp [readSlot, hpayloads, readValue_nil]
  | @present f v hv hdefault =>
      have hpayloads : payloadsOf f.number entries = [v.payload] := hone rfl
      have hvalue := hread.value hv (hsize (f.number, v) (by simp))
      simp [readSlot, hpayloads, hvalue, hdefault]
  | @repeated f vs hnumeric hvs =>
      have hpayloads : payloadsOf f.number entries = vs.map Value.payload := by
        rw [hone rfl, List.map_map]
        rfl
      have hvalues := hread.repeated hnumeric hvs fun v hv =>
        hsize (f.number, v) (List.mem_map.mpr ⟨v, hv, rfl⟩)
      simp [readSlot, hpayloads, hvalues]
  | @packed f ns hnumeric hns =>
      have hpayloads : payloadsOf f.number entries =
          if ns.isEmpty then [] else [(Value.numbers ns).payload] := by
        rw [hone rfl]
        split <;> rfl
      cases ns with
      | nil => simp [readSlot, hpayloads, readRepeated_nil]
      | cons n ns =>
          have hvalues : readRepeated read f.kind [(Value.numbers (n :: ns)).payload] =
              some [.numbers (n :: ns)] := readRepeated_packed hnumeric hns
          simp [readSlot, hpayloads, hvalues]
  | undecided members =>
      have hown := hentries (fun n => members.any (·.number == n)) (hmembers members)
      have hsplit : ([] : List Entry).splitBy (fun a b => a.1 == b.1) = [] := rfl
      simp [readSlot, hown, hsplit]
  | @chosen members f v hf hv =>
      have hown := hentries (fun n => members.any (·.number == n)) (hmembers members)
      have hfind : members.find? (·.number == f.number) = some f := by
        have hunique {g : Field} (hg : g ∈ members) (heq : g.number = f.number) : g = f :=
          List.inj_on_of_nodup_map hnodup hg hf heq
        cases hg : members.find? (·.number == f.number) with
        | none => simpa using List.find?_eq_none.mp hg f hf
        | some g =>
            have heq : g.number = f.number := by simpa using List.find?_some hg
            rw [hunique (List.mem_of_find?_eq_some hg) heq]
      have hsplit : [(f.number, v.payload)].splitBy (fun a b => a.1 == b.1) =
          [[(f.number, v.payload)]] := rfl
      have hvalue := hread.value hv (hsize (f.number, v) (by simp))
      simp [readSlot, hown, hsplit, readRun, hfind, hvalue]

theorem Slot.Holds.number_mem {slot : Slot} {part : Message} (hholds : slot.Holds proper part) :
    ∀ e ∈ part, e.1 ∈ slot.numbers := by
  intro e he
  cases hholds with
  | absent f => cases he
  | present _ _ => simp_all [numbers, fields]
  | repeated _ _ =>
      obtain ⟨v, _, rfl⟩ := List.mem_map.mp he
      simp [numbers, fields]
  | packed _ _ =>
      split at he
      · cases he
      · simp_all [numbers, fields]
  | undecided members => cases he
  | @chosen members f v hf _ =>
      rw [List.mem_singleton.mp he]
      exact List.mem_map.mpr ⟨f, hf, rfl⟩

theorem Fills.number_mem {slots : List Slot} {m : Message} (hfill : Fills proper slots m) :
    ∀ e ∈ m, e.1 ∈ slots.flatMap Slot.numbers := by
  induction hfill with
  | nil =>
      intro e he
      cases he
  | @cons slot slots part rest hholds _ ih =>
      intro e he
      rw [List.flatMap_cons, List.mem_append]
      obtain he | he := List.mem_append.mp he
      · exact .inl (hholds.number_mem e he)
      · exact .inr (ih e he)

theorem filter_entries_eq_nil {m : Message} {P : Nat → Bool} (hm : ∀ e ∈ m, P e.1 = false) :
    m.entries.filter (fun e => P e.1) = [] := by
  rw [List.filter_eq_nil_iff]
  intro e he
  obtain ⟨e', he', rfl⟩ := List.mem_map.mp he
  simp [hm e' he']

theorem filter_entries_eq_self {m : Message} {P : Nat → Bool} (hm : ∀ e ∈ m, P e.1 = true) :
    m.entries.filter (fun e => P e.1) = m.entries := by
  rw [List.filter_eq_self]
  intro e he
  obtain ⟨e', he', rfl⟩ := List.mem_map.mp he
  exact hm e' he'

/-- Slots with different field numbers are read one by one from the entries of all of them. -/
theorem Reads.slots (hread : Reads proper read) {slots : List Slot} {m : Message}
    (hfill : Fills proper slots m) (hnodup : (slots.flatMap Slot.numbers).Nodup) (hsize : m.Sized)
    {entries : List Entry}
    (hentries : ∀ P : Nat → Bool, (∀ n, P n = true → n ∈ slots.flatMap Slot.numbers) →
      entries.filter (fun e => P e.1) = m.entries.filter (fun e => P e.1)) :
    ∃ parts, slots.mapM (readSlot read entries) = some parts ∧ parts.flatten = m := by
  induction hfill with
  | nil => exact ⟨[], rfl, rfl⟩
  | @cons slot slots part rest hholds hrest ih =>
      rw [List.flatMap_cons, List.nodup_append] at hnodup
      obtain ⟨hslot, hslots, hdisjoint⟩ := hnodup
      have hpart : readSlot read entries slot = some part := by
        refine hread.slot hholds hslot hsize.left fun P hP => ?_
        have hothers : rest.entries.filter (fun e => P e.1) = [] :=
          filter_entries_eq_nil fun e he => Bool.eq_false_iff.mpr fun htrue =>
            hdisjoint e.1 ((hP e.1).mp htrue) e.1 (hrest.number_mem e he) rfl
        have hself : part.entries.filter (fun e => P e.1) = part.entries :=
          filter_entries_eq_self fun e he => (hP e.1).mpr (hholds.number_mem e he)
        rw [hentries P fun n hn => by simp [(hP n).mp hn], Message.entries_append,
          List.filter_append, hself, hothers, List.append_nil]
      obtain ⟨parts, hparts, rfl⟩ := ih hslots hsize.right fun P hP => by
        have hnone : part.entries.filter (fun e => P e.1) = [] :=
          filter_entries_eq_nil fun e he => Bool.eq_false_iff.mpr fun htrue =>
            hdisjoint e.1 (hholds.number_mem e he) e.1 (hP e.1 htrue) rfl
        rw [hentries P fun n hn => by simp only [List.flatMap_cons, List.mem_append, hP n hn, or_true],
          Message.entries_append, List.filter_append, hnone, List.nil_append]
      exact ⟨part :: parts, by rw [List.mapM_cons, hpart, hparts]; rfl, rfl⟩

theorem Reads.merged (hread : Reads proper read) {limit : Nat} {t : MessageType} {m : Message}
    (hfill : Fills proper t.slots m) (hsize : m.encode.length < 1 <<< 64) :
    readMerged limit read t [m.encode] = some m := by
  have hsized := Message.sized_of_length hsize
  have hwritable := hsized.writable fun e he => t.number_bounds e.1 (hfill.number_mem e he)
  have hentries : Wire.readEntries limit m.encode = some m.entries := by
    rw [Message.encode_eq_flatMap]
    exact Wire.readEntries_flatMap hwritable limit
  obtain ⟨parts, hparts, hflat⟩ := hread.slots hfill t.nodup_numbers hsized fun P _ => rfl
  simp [readMerged, hentries, hparts, hflat]

end Reading

section Parts

open Message (ofNumber ofText ofBytes ofMessage ofMessages)

variable {proper : MessageType → Message → Prop}

theorem holds_ofText {f : Field} (hkind : f.kind = .text) (s : String) :
    (Slot.single f).Holds proper (ofText f.number s) := by
  unfold ofText
  split
  · exact .absent f
  · next hne =>
    refine .present ?_ (by simpa [Value.isDefault] using hne)
    rw [hkind]
    exact .text s

theorem holds_ofBytes {f : Field} (hkind : f.kind = .bytes) (b : Bytes) :
    (Slot.single f).Holds proper (ofBytes f.number b) := by
  unfold ofBytes
  split
  · exact .absent f
  · next hne =>
    refine .present ?_ (by simpa [Value.isDefault] using hne)
    rw [hkind]
    exact .bytes b

theorem holds_ofNumber {f : Field} (hkind : f.kind.isNumeric = true) {n : UInt64}
    (hn : f.kind.normalize n = n) : (Slot.single f).Holds proper (ofNumber f.number n) := by
  unfold ofNumber
  split
  · exact .absent f
  · next hne => exact .present (.number hkind hn) (by simpa [Value.isDefault] using hne)

theorem holds_ofMessage {f : Field} {t : MessageType} (hkind : f.kind = .message t) {m : Message}
    (hm : proper t m) : (Slot.single f).Holds proper (ofMessage f.number m) := by
  refine .present ?_ rfl
  rw [hkind]
  exact .message hm

theorem holds_ofMessages {f : Field} {t : MessageType} (hkind : f.kind = .message t)
    {ms : List Message} (hms : ∀ m ∈ ms, proper t m) :
    (Slot.repeated f).Holds proper (ofMessages f.number ms) := by
  have hvalues : ofMessages f.number ms = (ms.map Value.message).map (f.number, ·) := by
    simp [ofMessages]
  rw [hvalues]
  refine .repeated (by rw [hkind]; rfl) fun v hv => ?_
  obtain ⟨m, hm, rfl⟩ := List.mem_map.mp hv
  rw [hkind]
  exact .message (hms m hm)

end Parts

theorem reads_readMessage (depth : Nat) : Reads (Message.Conforms depth) (readMessage depth) := by
  induction depth with
  | zero =>
      intro t m hm hsize
      have hnone : Reads (fun _ _ => False) fun _ _ => none := fun t m h => h.elim
      exact hnone.merged hm hsize
  | succ depth ih =>
      intro t m hm hsize
      exact ih.merged hm hsize

/-- A message of a type is read back from its encoding. -/
theorem decode_encode {t : MessageType} {m : Message} (hm : m.Conforms nestingLimit t)
    (hsize : m.encode.length < 1 <<< 64) : decode t m.encode = some m :=
  reads_readMessage nestingLimit t m hm hsize

end PacketRelay.Schema
