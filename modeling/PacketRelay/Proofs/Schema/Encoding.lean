import PacketRelay.Proofs.Bytes
import PacketRelay.Schema.Message

/-!
# Encodings determine their entries

Numbers and entries are written so that where one ends is seen from its own bytes.  Equal encodings
thus have equal entries, and by the same law applied to each part, equal nested messages.
-/

namespace PacketRelay

namespace Wire

theorem varint_append_inj {m n : Nat} {x y : Bytes} (h : varint m ++ x = varint n ++ y) :
    m = n ∧ x = y := by
  have hm : m < 1 <<< (m + n) := by
    rw [Nat.one_shiftLeft]
    exact Nat.lt_of_lt_of_le Nat.lt_two_pow_self (Nat.pow_le_pow_right (by omega) (by omega))
  have hn : n < 1 <<< (m + n) := by
    rw [Nat.one_shiftLeft]
    exact Nat.lt_of_lt_of_le Nat.lt_two_pow_self (Nat.pow_le_pow_right (by omega) (by omega))
  have hread : some (m, x) = some (n, y) := by
    rw [← readVarint_varint hm x, ← readVarint_varint hn y, h]
  simpa using hread

theorem writeEntry_append_inj {e e' : Entry} {x y : Bytes} (he : e.2 ≠ .other)
    (he' : e'.2 ≠ .other) (h : writeEntry e ++ x = writeEntry e' ++ y) : e = e' ∧ x = y := by
  obtain ⟨k, v⟩ := e
  obtain ⟨k', v'⟩ := e'
  cases v with
  | other => exact absurd rfl he
  | word n =>
      cases v' with
      | other => exact absurd rfl he'
      | word n' =>
          simp only [writeEntry, List.append_assoc] at h
          obtain ⟨hk, h⟩ := varint_append_inj h
          obtain ⟨hn, rfl⟩ := varint_append_inj h
          obtain rfl : k = k' := by omega
          obtain rfl := UInt64.toNat_inj.mp hn
          exact ⟨rfl, rfl⟩
      | bytes b' =>
          simp only [writeEntry, List.append_assoc] at h
          obtain ⟨hk, -⟩ := varint_append_inj h
          omega
  | bytes b =>
      cases v' with
      | other => exact absurd rfl he'
      | word n' =>
          simp only [writeEntry, List.append_assoc] at h
          obtain ⟨hk, -⟩ := varint_append_inj h
          omega
      | bytes b' =>
          simp only [writeEntry, List.append_assoc] at h
          obtain ⟨hk, h⟩ := varint_append_inj h
          obtain ⟨hl, h⟩ := varint_append_inj h
          obtain ⟨rfl, rfl⟩ := List.append_inj h hl
          obtain rfl : k = k' := by omega
          exact ⟨rfl, rfl⟩

theorem writeEntry_ne_nil {e : Entry} (he : e.2 ≠ .other) : writeEntry e ≠ [] := by
  obtain ⟨k, v⟩ := e
  cases v with
  | other => exact absurd rfl he
  | word n => simp [writeEntry, varint_ne_nil]
  | bytes b => simp [writeEntry, varint_ne_nil]

end Wire

namespace Schema

theorem Value.payload_ne_other (v : Value) : v.payload ≠ .other := by
  cases v <;> simp [Value.payload]

/-- The entries of an encoded message. -/
def Message.entries (m : Message) : List Wire.Entry := m.map fun e => (e.1, e.2.payload)

@[simp] theorem Message.entries_nil : Message.entries [] = [] := rfl

@[simp] theorem Message.entries_cons (field : Nat) (v : Value) (m : Message) :
    Message.entries ((field, v) :: m) = (field, v.payload) :: Message.entries m := rfl

theorem Message.encode_cons (field : Nat) (v : Value) (m : Message) :
    Message.encode ((field, v) :: m) = Wire.writeEntry (field, v.payload) ++ m.encode := by
  rw [Message.encode]

theorem Message.entries_eq_of_encode_eq {m m' : Message} (h : m.encode = m'.encode) :
    m.entries = m'.entries := by
  induction m generalizing m' with
  | nil =>
      cases m' with
      | nil => rfl
      | cons e m' =>
          rw [Message.encode_cons, Message.encode, eq_comm, List.append_eq_nil_iff] at h
          exact absurd h.1 (Wire.writeEntry_ne_nil e.2.payload_ne_other)
  | cons e m ih =>
      cases m' with
      | nil =>
          rw [Message.encode_cons, Message.encode, List.append_eq_nil_iff] at h
          exact absurd h.1 (Wire.writeEntry_ne_nil e.2.payload_ne_other)
      | cons e' m' =>
          rw [Message.encode_cons, Message.encode_cons] at h
          obtain ⟨he, htail⟩ := Wire.writeEntry_append_inj e.2.payload_ne_other
            e'.2.payload_ne_other h
          rw [Message.entries_cons, Message.entries_cons, he, ih htail]

namespace Message

variable {field : Nat}

/-- An absent number is zero, so the entries of a number determine it. -/
theorem ofNumber_entries_inj {m n : UInt64}
    (h : (ofNumber field m).entries = (ofNumber field n).entries) : m = n := by
  unfold ofNumber at h
  split at h <;> split at h <;> simp_all [Value.payload]

theorem ofText_entries_inj {s t : String}
    (h : (ofText field s).entries = (ofText field t).entries) : s = t := by
  unfold ofText at h
  split at h <;> split at h <;> simp_all [Value.payload, Bytes.ofText_inj]

theorem ofBytes_entries_inj {b c : Bytes}
    (h : (ofBytes field b).entries = (ofBytes field c).entries) : b = c := by
  unfold ofBytes at h
  split at h <;> split at h <;> simp_all [Value.payload]

end Message

/-- The byte string in a field of an encoded message, empty when it is absent. -/
def Message.payloadBytes (entries : List Wire.Entry) (field : Nat) : Bytes :=
  match entries.lookup field with
  | some (.bytes b) => b
  | _ => []

end Schema

end PacketRelay
