import PacketRelay.Height
import PacketRelay.Proofs.Schema.Decoding

/-!
# Reading the fields of a message

A message that is put together field by field has in each field what was put there, whichever parts
stand before it.
-/

namespace PacketRelay

namespace Schema.Message

variable {n field : Nat}

theorem lookup_ofText_of_ne (hne : n ≠ field) (s : String) :
    List.lookup n (ofText field s) = none := by
  unfold ofText
  split <;> simp [List.lookup_cons, beq_eq_false_iff_ne.mpr hne]

theorem lookup_ofBytes_of_ne (hne : n ≠ field) (b : Bytes) :
    List.lookup n (ofBytes field b) = none := by
  unfold ofBytes
  split <;> simp [List.lookup_cons, beq_eq_false_iff_ne.mpr hne]

theorem lookup_ofNumber_of_ne (hne : n ≠ field) (k : UInt64) :
    List.lookup n (ofNumber field k) = none := by
  unfold ofNumber
  split <;> simp [List.lookup_cons, beq_eq_false_iff_ne.mpr hne]

theorem lookup_ofMessage_of_ne (hne : n ≠ field) (m : Message) :
    List.lookup n (ofMessage field m) = none := by
  simp [ofMessage, List.lookup_cons, beq_eq_false_iff_ne.mpr hne]

theorem lookup_ofMessage?_of_ne (hne : n ≠ field) (m : Option Message) :
    List.lookup n (ofMessage? field m) = none := by
  cases m with
  | none => rfl
  | some m => exact lookup_ofMessage_of_ne hne m

theorem lookup_ofMessages_of_ne (hne : n ≠ field) (ms : List Message) :
    List.lookup n (ofMessages field ms) = none := by
  induction ms with
  | nil => rfl
  | cons m ms ih =>
      rw [ofMessages, List.map_cons, List.lookup_cons, beq_eq_false_iff_ne.mpr hne]
      exact ih

/-- The parts before a field do not matter. -/
theorem message?_append {m : Message} (hm : m.lookup field = none) (m' : Message) :
    message? (m ++ m') field = m'.message? field := by
  simp [message?, List.lookup_append, hm]

theorem message?_ofMessage_append (field : Nat) (m m' : Message) :
    message? (ofMessage field m ++ m') field = some m := by
  simp [message?, ofMessage]

theorem bytes_append {m : Message} (hm : m.lookup field = none) (m' : Message) :
    bytes (m ++ m') field = m'.bytes field := by
  simp [bytes, List.lookup_append, hm]

theorem bytes_ofBytes_append {m' : Message} (hm' : m'.lookup field = none) (b : Bytes) :
    bytes (ofBytes field b ++ m') field = b := by
  unfold ofBytes
  split
  · next hnil => simp [bytes, hm', hnil]
  · simp [bytes]

theorem bytes_ofBytes (field : Nat) (b : Bytes) : bytes (ofBytes field b) field = b := by
  have hempty : List.lookup field ([] : Message) = none := rfl
  simpa using bytes_ofBytes_append hempty b

theorem number_ofNumber (field : Nat) (k : UInt64) : number (ofNumber field k) field = k := by
  unfold ofNumber
  split <;> simp_all [number]

theorem number_append {m : Message} (hm : m.lookup field = none) (m' : Message) :
    number (m ++ m') field = m'.number field := by
  simp [number, List.lookup_append, hm]

theorem number_append_left {m' : Message} (hm' : m'.lookup field = none) (m : Message) :
    number (m ++ m') field = m.number field := by
  simp [number, List.lookup_append, hm']

theorem text_ofText (field : Nat) (s : String) : text (ofText field s) field = s := by
  unfold ofText
  split <;> simp_all [text]

theorem text_append_left {m' : Message} (hm' : m'.lookup field = none) (m : Message) :
    text (m ++ m') field = m.text field := by
  simp [text, List.lookup_append, hm']

end Schema.Message

theorem Height.conforms (height : Height) (depth : Nat) :
    height.toMessage.Conforms depth .height := by
  refine Schema.Message.conforms_of_fills (fun proper => ?_) depth
  have hfill : Schema.Fills proper Schema.MessageType.height.slots
      (Schema.Message.ofNumber 1 height.revisionNumber ++
        (Schema.Message.ofNumber 2 height.revisionHeight ++ [])) :=
    .cons (Schema.holds_ofNumber rfl rfl) (.cons (Schema.holds_ofNumber rfl rfl) .nil)
  rwa [List.append_nil] at hfill

theorem Height.ofMessage_toMessage (height : Height) :
    Height.ofMessage height.toMessage = height := by
  obtain ⟨number, height⟩ := height
  by_cases hnumber : number = 0 <;> by_cases hheight : height = 0 <;>
    simp [toMessage, ofMessage, Schema.Message.ofNumber, Schema.Message.number, List.lookup_cons,
      hnumber, hheight]

theorem Height.ofMessage?_toMessage (height : Height) :
    Height.ofMessage? (some height.toMessage) = height := height.ofMessage_toMessage

/-- The height in a field, behind parts that do not have the field. -/
theorem Height.ofMessage?_append {m : Schema.Message} {field : Nat} (hm : m.lookup field = none)
    (height : Height) (m' : Schema.Message) :
    Height.ofMessage? (Schema.Message.message?
      (m ++ (Schema.Message.ofMessage field height.toMessage ++ m')) field) = height := by
  rw [Schema.Message.message?_append hm, Schema.Message.message?_ofMessage_append]
  exact height.ofMessage?_toMessage

end PacketRelay
