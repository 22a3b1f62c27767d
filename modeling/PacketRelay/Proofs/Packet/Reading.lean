import Mathlib.Tactic.ByContra
import PacketRelay.Packet.Record
import PacketRelay.Proofs.Decimal.Numerals
import PacketRelay.Proofs.Height
import PacketRelay.Proofs.Hex

/-!
# Reading packets back from events

What an event says about a packet is stated on its list of attributes: the first attribute with a
key counts, and a text stands for a number, a height or bytes by how it is spelt.  The reader
returns exactly the packet of which the event says all this, and nothing if a part is malformed.
-/

namespace PacketRelay

theorem toOption_eq_some_iff {ε α : Type} {x : Except ε α} {a : α} :
    x.toOption = some a ↔ x = .ok a := by
  cases x <;> simp [Except.toOption]

namespace Event

/-- The first attribute with the key has this text. -/
def Shows (e : Event) (key text : String) : Prop :=
  ∃ before after, e.attributes = before ++ (key, text) :: after ∧ ∀ a ∈ before, a.1 ≠ key

def Lacks (e : Event) (key : String) : Prop := ∀ a ∈ e.attributes, a.1 ≠ key

/-- What the first attribute with the key stands for, or else the value of an absent one. -/
inductive Gives {α : Type} (e : Event) (key : String) (absent : α)
    (StandsFor : String → α → Prop) : α → Prop where
  | shown {text : String} {a : α} (hshows : e.Shows key text) (hstands : StandsFor text a) :
      Gives e key absent StandsFor a
  | lacking (hlacks : e.Lacks key) : Gives e key absent StandsFor absent

variable {e : Event} {key : String}

theorem attribute?_eq_some_iff {text : String} :
    e.attribute? key = some text ↔ e.Shows key text := by
  rw [attribute?, List.lookup_eq_some_iff]
  simp only [Shows, bne_iff_ne, ne_eq, eq_comm (a := key)]

theorem attribute?_eq_none_iff : e.attribute? key = none ↔ e.Lacks key := by
  rw [attribute?, List.lookup_eq_none_iff]
  simp only [Lacks, bne_iff_ne, ne_eq, eq_comm (a := key)]

theorem shows_or_lacks (e : Event) (key : String) : (∃ text, e.Shows key text) ∨ e.Lacks key := by
  cases h : e.attribute? key with
  | none => exact .inr (attribute?_eq_none_iff.mp h)
  | some text => exact .inl ⟨text, attribute?_eq_some_iff.mp h⟩

variable {α : Type} {absent : α} {read : String → Option α} {StandsFor : String → α → Prop}

theorem readAttribute_eq_some_iff (e : Event) (key : String) (absent : α)
    (hread : ∀ text a, read text = some a ↔ StandsFor text a) {a : α} :
    e.readAttribute key absent read = some a ↔ e.Gives key absent StandsFor a := by
  unfold readAttribute
  constructor
  · intro h
    cases htext : e.attribute? key with
    | none =>
        obtain rfl : absent = a := by simpa [htext] using h
        exact .lacking (attribute?_eq_none_iff.mp htext)
    | some text =>
        have hvalue : read text = some a := by simpa [htext] using h
        exact .shown (attribute?_eq_some_iff.mp htext) ((hread text a).mp hvalue)
  · rintro (⟨hshows, hstands⟩ | hlacks)
    · rw [attribute?_eq_some_iff.mpr hshows]
      exact (hread _ a).mpr hstands
    · rw [attribute?_eq_none_iff.mpr hlacks]

theorem Shows.unique {text other : String} (h : e.Shows key text) (h' : e.Shows key other) :
    text = other := by
  rw [← attribute?_eq_some_iff] at h h'
  exact Option.some.inj (h.symm.trans h')

theorem Shows.not_lacks {text : String} (h : e.Shows key text) : ¬ e.Lacks key := by
  intro hlacks
  rw [← attribute?_eq_some_iff, attribute?_eq_none_iff.mpr hlacks] at h
  cases h

theorem Gives.standsFor {a : α} {text : String} (h : e.Gives key absent StandsFor a)
    (hshows : e.Shows key text) : StandsFor text a := by
  cases h with
  | shown hother hstands => rwa [hshows.unique hother]
  | lacking hlacks => exact absurd hlacks hshows.not_lacks

theorem exists_gives (absent : α) (h : ∀ text, e.Shows key text → ∃ a, StandsFor text a) :
    ∃ a, e.Gives key absent StandsFor a := by
  obtain ⟨text, hshows⟩ | hlacks := e.shows_or_lacks key
  · obtain ⟨a, ha⟩ := h text hshows
    exact ⟨a, .shown hshows ha⟩
  · exact ⟨absent, .lacking hlacks⟩

theorem attributeText_eq_iff {text : String} :
    e.attributeText key = text ↔ e.Gives key "" Eq text := by
  have hread : e.readAttribute key "" some = some text ↔ e.Gives key "" Eq text :=
    readAttribute_eq_some_iff e key "" fun _ _ => Option.some_inj
  rw [← hread, attributeText, readAttribute]
  cases e.attribute? key <;> simp

end Event

namespace Packet

/-- The text is a numeral of this value. -/
def Numeral (text : String) (n : UInt64) : Prop := Decimal.Denotes text.toList n.toNat

/-- The text spells the bytes in hexadecimal. -/
def Digits (text : String) (b : Bytes) : Prop := Hex.Spells text.toList b

/-- Bytes spelt under one key, or else those of the text under another one. -/
def Content (e : Event) (hexKey textKey : String) (b : Bytes) : Prop :=
  ∃ text, e.Gives textKey "" Eq text ∧ e.Gives hexKey (Bytes.ofText text) Digits b

/-- The event says of each field of the packet, the height apart, that it has its value. -/
structure ReadFrom (p : Packet) (e : Event) : Prop where
  sequence : ∃ text, e.Shows "packet_sequence" text ∧ Numeral text p.sequence
  data : Content e "packet_data_hex" "packet_data" p.data
  ack : Content e "packet_ack_hex" "packet_ack" p.ack
  timeoutHeight : e.Gives "packet_timeout_height" Height.zero (fun t h => h.WrittenAs t)
    p.timeoutHeight
  timeoutTimestamp : e.Gives "packet_timeout_timestamp" 0 Numeral p.timeoutTimestamp
  sourcePort : e.Gives "packet_src_port" "" Eq p.sourcePort
  sourceChannel : e.Gives "packet_src_channel" "" Eq p.sourceChannel
  destPort : e.Gives "packet_dst_port" "" Eq p.destPort
  destChannel : e.Gives "packet_dst_channel" "" Eq p.destChannel

/-- The event shows every field of the packet, the height apart, as chains write it: decimal
numerals, the text of a height, and hexadecimal digits in any letter case. -/
structure WrittenIn (p : Packet) (e : Event) : Prop where
  sequence : e.Shows "packet_sequence" (Decimal.text p.sequence.toNat)
  data : ∃ text, e.Shows "packet_data_hex" text ∧ Digits text p.data
  ack : ∃ text, e.Shows "packet_ack_hex" text ∧ Digits text p.ack
  timeoutHeight : e.Shows "packet_timeout_height" p.timeoutHeight.text
  timeoutTimestamp : e.Shows "packet_timeout_timestamp" (Decimal.text p.timeoutTimestamp.toNat)
  sourcePort : e.Shows "packet_src_port" p.sourcePort
  sourceChannel : e.Shows "packet_src_channel" p.sourceChannel
  destPort : e.Shows "packet_dst_port" p.destPort
  destChannel : e.Shows "packet_dst_channel" p.destChannel

/-- A text under one of the keys that have to be read, which stands for nothing. -/
inductive Malformed : (key text : String) → Prop where
  | sequence {text : String} (h : ∀ n, ¬ Numeral text n) : Malformed "packet_sequence" text
  | data {text : String} (h : ∀ b, ¬ Digits text b) : Malformed "packet_data_hex" text
  | ack {text : String} (h : ∀ b, ¬ Digits text b) : Malformed "packet_ack_hex" text
  | timeoutHeight {text : String} (h : ∀ height : Height, ¬ height.WrittenAs text) :
      Malformed "packet_timeout_height" text
  | timeoutTimestamp {text : String} (h : ∀ n, ¬ Numeral text n) :
      Malformed "packet_timeout_timestamp" text

theorem readNumber_eq_some_iff (text : String) (n : UInt64) :
    readNumber text = some n ↔ Numeral text n :=
  toOption_eq_some_iff.trans Decimal.readUInt64_ok_iff

theorem decode_eq_some_iff (text : String) (b : Bytes) :
    (Hex.decode text).toOption = some b ↔ Digits text b :=
  toOption_eq_some_iff.trans Hex.decode_ok_iff

theorem parse_eq_some_iff (text : String) (h : Height) :
    (Height.parse text).toOption = some h ↔ h.WrittenAs text :=
  toOption_eq_some_iff.trans Height.parse_ok_iff

theorem numeral_text (n : UInt64) : Numeral (Decimal.text n.toNat) n := by
  rw [Numeral, Decimal.text, String.toList_ofList]
  exact Decimal.denotes_digits n

variable {e : Event} {height : UInt64}

theorem readContent_eq_some_iff {hexKey textKey : String} {b : Bytes} :
    readContent e hexKey textKey = some b ↔ Content e hexKey textKey b := by
  rw [readContent, Event.readAttribute_eq_some_iff _ _ _ decode_eq_some_iff]
  constructor
  · intro h
    exact ⟨e.attributeText textKey, Event.attributeText_eq_iff.mp rfl, h⟩
  · rintro ⟨text, htext, h⟩
    rwa [Event.attributeText_eq_iff.mpr htext]

theorem readSequence_eq_some_iff {n : UInt64} :
    (e.attribute? "packet_sequence" >>= readNumber) = some n ↔
      ∃ text, e.Shows "packet_sequence" text ∧ Numeral text n := by
  simp only [Option.bind_eq_bind, Option.bind_eq_some_iff, Event.attribute?_eq_some_iff,
    readNumber_eq_some_iff]

theorem ofEvent?_eq_some_iff {q : Packet} :
    ofEvent? height e = some q ↔ q.height = height ∧ q.ReadFrom e := by
  have hheight (h : Height) := Event.readAttribute_eq_some_iff e "packet_timeout_height"
    Height.zero parse_eq_some_iff (a := h)
  have htimestamp (n : UInt64) := Event.readAttribute_eq_some_iff e "packet_timeout_timestamp" 0
    readNumber_eq_some_iff (a := n)
  unfold ofEvent?
  constructor
  · intro h
    obtain ⟨n, hn, h⟩ := Option.bind_eq_some_iff.mp h
    obtain ⟨data, hdata, h⟩ := Option.bind_eq_some_iff.mp h
    obtain ⟨ack, hack, h⟩ := Option.bind_eq_some_iff.mp h
    obtain ⟨timeoutHeight, ht, h⟩ := Option.bind_eq_some_iff.mp h
    obtain ⟨timestamp, hts, h⟩ := Option.bind_eq_some_iff.mp h
    obtain rfl := Option.some.inj h
    exact ⟨rfl, {
      sequence := readSequence_eq_some_iff.mp hn
      data := readContent_eq_some_iff.mp hdata
      ack := readContent_eq_some_iff.mp hack
      timeoutHeight := (hheight _).mp ht
      timeoutTimestamp := (htimestamp _).mp hts
      sourcePort := Event.attributeText_eq_iff.mp rfl
      sourceChannel := Event.attributeText_eq_iff.mp rfl
      destPort := Event.attributeText_eq_iff.mp rfl
      destChannel := Event.attributeText_eq_iff.mp rfl }⟩
  · rintro ⟨rfl, h⟩
    rw [readSequence_eq_some_iff.mpr h.sequence, readContent_eq_some_iff.mpr h.data,
      readContent_eq_some_iff.mpr h.ack, (hheight _).mpr h.timeoutHeight,
      (htimestamp _).mpr h.timeoutTimestamp, Event.attributeText_eq_iff.mpr h.sourcePort,
      Event.attributeText_eq_iff.mpr h.sourceChannel, Event.attributeText_eq_iff.mpr h.destPort,
      Event.attributeText_eq_iff.mpr h.destChannel]
    rfl

theorem not_readFrom_of_malformed {q : Packet} {key text : String} (hshows : e.Shows key text)
    (hbad : Malformed key text) : ¬ q.ReadFrom e := by
  intro h
  cases hbad with
  | sequence hbad =>
      obtain ⟨other, hother, hnumeral⟩ := h.sequence
      rw [hother.unique hshows] at hnumeral
      exact hbad _ hnumeral
  | data hbad =>
      obtain ⟨_, _, hdata⟩ := h.data
      exact hbad _ (hdata.standsFor hshows)
  | ack hbad =>
      obtain ⟨_, _, hack⟩ := h.ack
      exact hbad _ (hack.standsFor hshows)
  | timeoutHeight hbad => exact hbad _ (h.timeoutHeight.standsFor hshows)
  | timeoutTimestamp hbad => exact hbad _ (h.timeoutTimestamp.standsFor hshows)

theorem exists_readFrom (hsequence : ¬ e.Lacks "packet_sequence")
    (hwell : ∀ key text, e.Shows key text → ¬ Malformed key text) (height : UInt64) :
    ∃ q : Packet, q.height = height ∧ q.ReadFrom e := by
  have hstands {α : Type} {key : String} {StandsFor : String → α → Prop}
      (hbad : ∀ {text}, (∀ a, ¬ StandsFor text a) → Malformed key text) (text : String)
      (hshows : e.Shows key text) : ∃ a, StandsFor text a := by
    by_contra hnone
    exact hwell key text hshows (hbad (not_exists.mp hnone))
  have hcontent {hexKey : String} (textKey : String)
      (hbad : ∀ {text}, (∀ b, ¬ Digits text b) → Malformed hexKey text) :
      ∃ b, Content e hexKey textKey b := by
    obtain ⟨b, hb⟩ := Event.exists_gives (Bytes.ofText (e.attributeText textKey)) (hstands hbad)
    exact ⟨b, e.attributeText textKey, Event.attributeText_eq_iff.mp rfl, hb⟩
  obtain ⟨text, hshows⟩ := (e.shows_or_lacks "packet_sequence").resolve_right hsequence
  obtain ⟨sequence, hnumeral⟩ := hstands .sequence text hshows
  obtain ⟨data, hdata⟩ := hcontent "packet_data" .data
  obtain ⟨ack, hack⟩ := hcontent "packet_ack" .ack
  obtain ⟨timeoutHeight, hheight⟩ :=
    Event.exists_gives Height.zero (hstands .timeoutHeight)
  obtain ⟨timeoutTimestamp, htimestamp⟩ :=
    Event.exists_gives 0 (hstands .timeoutTimestamp)
  exact ⟨{ height, sequence, data, ack, timeoutHeight, timeoutTimestamp
           sourcePort := e.attributeText "packet_src_port"
           sourceChannel := e.attributeText "packet_src_channel"
           destPort := e.attributeText "packet_dst_port"
           destChannel := e.attributeText "packet_dst_channel" }, rfl,
    ⟨⟨text, hshows, hnumeral⟩, hdata, hack, hheight, htimestamp,
      Event.attributeText_eq_iff.mp rfl, Event.attributeText_eq_iff.mp rfl,
      Event.attributeText_eq_iff.mp rfl, Event.attributeText_eq_iff.mp rfl⟩⟩

theorem ofEvent?_eq_none_iff :
    ofEvent? height e = none ↔
      e.Lacks "packet_sequence" ∨ ∃ key text, e.Shows key text ∧ Malformed key text := by
  rw [Option.eq_none_iff_forall_ne_some]
  constructor
  · intro hnone
    by_contra hreadable
    rw [not_or] at hreadable
    obtain ⟨hsequence, hwell⟩ := hreadable
    have hwell (key text : String) (hshows : e.Shows key text) : ¬ Malformed key text :=
      fun hbad => hwell ⟨key, text, hshows, hbad⟩
    obtain ⟨q, hq⟩ := exists_readFrom hsequence hwell height
    exact hnone q (ofEvent?_eq_some_iff.mpr hq)
  · intro hfault q hq
    obtain ⟨_, hread⟩ := ofEvent?_eq_some_iff.mp hq
    obtain hlacks | ⟨key, text, hshows, hbad⟩ := hfault
    · obtain ⟨text, hshows, _⟩ := hread.sequence
      exact hshows.not_lacks hlacks
    · exact not_readFrom_of_malformed hshows hbad hread

theorem WrittenIn.readFrom {p : Packet} (h : p.WrittenIn e) : p.ReadFrom e := by
  have hcontent {hexKey : String} (textKey : String) {b : Bytes}
      (h : ∃ text, e.Shows hexKey text ∧ Digits text b) : Content e hexKey textKey b := by
    obtain ⟨text, hshows, hdigits⟩ := h
    exact ⟨e.attributeText textKey, Event.attributeText_eq_iff.mp rfl, .shown hshows hdigits⟩
  exact {
    sequence := ⟨_, h.sequence, numeral_text _⟩
    data := hcontent "packet_data" h.data
    ack := hcontent "packet_ack" h.ack
    timeoutHeight := .shown h.timeoutHeight p.timeoutHeight.writtenAs_text
    timeoutTimestamp := .shown h.timeoutTimestamp (numeral_text _)
    sourcePort := .shown h.sourcePort rfl
    sourceChannel := .shown h.sourceChannel rfl
    destPort := .shown h.destPort rfl
    destChannel := .shown h.destChannel rfl }

/-- A packet written as chains write it is read back unchanged, whatever else the event holds.
What is read is exactly what the attributes say, and nothing is read if the sequence is absent or
if an attribute that has to be read is malformed. -/
theorem ofEvent?_faithful (height : UInt64) (e : Event) :
    (∀ p : Packet, p.WrittenIn e → ofEvent? p.height e = some p) ∧
      (∀ q : Packet, ofEvent? height e = some q ↔ q.height = height ∧ q.ReadFrom e) ∧
      (ofEvent? height e = none ↔
        e.Lacks "packet_sequence" ∨ ∃ key text, e.Shows key text ∧ Malformed key text) :=
  ⟨fun _ hwritten => ofEvent?_eq_some_iff.mpr ⟨rfl, hwritten.readFrom⟩,
    fun _ => ofEvent?_eq_some_iff, ofEvent?_eq_none_iff⟩

/-- An event with digits of both cases, an outdated text of the data and a later sequence. -/
def mixedEvent : Event where
  kind := "write_acknowledgement"
  attributes := [
    ("packet_data", "outdated"), ("packet_ack_hex", "7b7D"), ("packet_dst_channel", "channel-1"),
    ("packet_dst_port", "transfer"), ("module", "ibc_channel"), ("packet_data_hex", "4aFf"),
    ("packet_timeout_height", "1-200"), ("packet_sequence", "7"), ("packet_sequence", "8"),
    ("packet_src_port", "transfer"), ("packet_src_channel", "channel-0"),
    ("packet_timeout_timestamp", "18446744073709551615"), ("packet_data_hex", "00")]

def mixedPacket : Packet where
  height := 12
  sequence := 7
  sourcePort := "transfer"
  sourceChannel := "channel-0"
  destPort := "transfer"
  destChannel := "channel-1"
  data := [0x4a, 0xff]
  timeoutHeight := ⟨1, 200⟩
  timeoutTimestamp := 18446744073709551615
  ack := [0x7b, 0x7d]

theorem mixedPacket_writtenIn : mixedPacket.WrittenIn mixedEvent where
  sequence := Event.attribute?_eq_some_iff.mp (by decide +kernel)
  data := ⟨"4aFf", Event.attribute?_eq_some_iff.mp (by decide +kernel),
    (decode_eq_some_iff _ _).mp (by decide +kernel)⟩
  ack := ⟨"7b7D", Event.attribute?_eq_some_iff.mp (by decide +kernel),
    (decode_eq_some_iff _ _).mp (by decide +kernel)⟩
  timeoutHeight := Event.attribute?_eq_some_iff.mp (by decide +kernel)
  timeoutTimestamp := Event.attribute?_eq_some_iff.mp (by decide +kernel)
  sourcePort := Event.attribute?_eq_some_iff.mp (by decide +kernel)
  sourceChannel := Event.attribute?_eq_some_iff.mp (by decide +kernel)
  destPort := Event.attribute?_eq_some_iff.mp (by decide +kernel)
  destChannel := Event.attribute?_eq_some_iff.mp (by decide +kernel)

theorem ofEvent?_mixedEvent :
    mixedPacket.WrittenIn mixedEvent ∧ ofEvent? 12 mixedEvent = some mixedPacket :=
  ⟨mixedPacket_writtenIn, (ofEvent?_faithful 12 mixedEvent).1 mixedPacket mixedPacket_writtenIn⟩

end Packet

end PacketRelay
