import PacketRelay.Height
import PacketRelay.Proofs.Decimal.Faults
import PacketRelay.Proofs.Text

/-!
# The text of a height

A height is read from the texts that split at their first hyphen into two numerals of 64 bits.  The
text of a height is one of these, and the height is read back from it.  Any other text is refused for
the first thing that is wrong with it.
-/

namespace PacketRelay.Height

open Decimal (Denotes HasFault)

variable {text : String} {number height : List Char} {h : Height} {fault : ParseFault}

/-- Two numerals with a hyphen between them. -/
def WrittenAs (text : String) (h : Height) : Prop :=
  ∃ number height, text.toList = number ++ '-' :: height ∧
    Decimal.Denotes number h.revisionNumber.toNat ∧ Decimal.Denotes height h.revisionHeight.toNat

/-- The parts of a text before and after its first hyphen. -/
def SplitsInto (text : String) (number height : List Char) : Prop :=
  text.toList = number ++ '-' :: height ∧ '-' ∉ number

/-- What a fault says of a text: it has no hyphen, or else the first of its two parts that is no
numeral of 64 bits has the fault. -/
def HasParseFault (text : String) : ParseFault → Prop
  | .noHyphen shown => shown = text ∧ '-' ∉ text.toList
  | .badNumber f => ∃ number height, SplitsInto text number height ∧ HasFault (1 <<< 64) number f
  | .badHeight f => ∃ number height, SplitsInto text number height ∧
      (∃ n : UInt64, Denotes number n.toNat) ∧ HasFault (1 <<< 64) height f

theorem isDigit_or_plus_of_denotes {cs : List Char} {n : Nat} (h : Denotes cs n) {c : Char}
    (hc : c ∈ cs) : Decimal.isDigit c = true ∨ c = '+' := by
  obtain ⟨ds, rfl | rfl, _, hds, _⟩ := h
  · exact .inl (hds c hc)
  · exact (List.mem_cons.mp hc).symm.imp_left (hds c)

theorem hyphen_notMem_of_denotes {cs : List Char} {n : Nat} (h : Denotes cs n) : '-' ∉ cs :=
  fun hmem => absurd (isDigit_or_plus_of_denotes h hmem) (by decide)

theorem cutFirst?_eq_some_iff_splitsInto :
    Text.cutFirst? '-' text.toList = some (number, height) ↔ SplitsInto text number height :=
  Text.cutFirst?_eq_some_iff

theorem writtenAs_iff : h.WrittenAs text ↔ ∃ number height, SplitsInto text number height ∧
    Denotes number h.revisionNumber.toNat ∧ Denotes height h.revisionHeight.toNat := by
  constructor
  · rintro ⟨number, height, htext, hn, hm⟩
    exact ⟨number, height, ⟨htext, hyphen_notMem_of_denotes hn⟩, hn, hm⟩
  · rintro ⟨number, height, ⟨htext, _⟩, hn, hm⟩
    exact ⟨number, height, htext, hn, hm⟩

theorem SplitsInto.parse_eq (hs : SplitsInto text number height) : parse text =
    match Decimal.readUInt64 number with
    | .error f => .error (.badNumber f)
    | .ok n =>
      match Decimal.readUInt64 height with
      | .error f => .error (.badHeight f)
      | .ok m => .ok ⟨n, m⟩ := by
  have hcut := cutFirst?_eq_some_iff_splitsInto.mpr hs
  unfold parse
  split
  · next hnone =>
    rw [hcut] at hnone
    cases hnone
  · next hsome =>
    rw [hcut] at hsome
    cases hsome
    rfl

theorem splitsInto_or_parse_eq (text : String) : (∃ number height, SplitsInto text number height) ∨
    '-' ∉ text.toList ∧ parse text = .error (.noHyphen text) := by
  cases hcut : Text.cutFirst? '-' text.toList with
  | none =>
      refine .inr ⟨Text.cutFirst?_eq_none_iff.mp hcut, ?_⟩
      rw [parse, hcut]
  | some parts => exact .inl ⟨parts.1, parts.2, cutFirst?_eq_some_iff_splitsInto.mp hcut⟩

theorem parse_ok_iff {text : String} {h : Height} : parse text = .ok h ↔ h.WrittenAs text := by
  rw [writtenAs_iff]
  constructor
  · intro hparse
    obtain ⟨number, height, hs⟩ | ⟨_, hnone⟩ := splitsInto_or_parse_eq text
    · rw [hs.parse_eq] at hparse
      split at hparse
      · cases hparse
      · next n hn =>
        split at hparse
        · cases hparse
        · next m hm =>
          obtain rfl := Except.ok.inj hparse
          exact ⟨number, height, hs, Decimal.readUInt64_ok_iff.mp hn,
            Decimal.readUInt64_ok_iff.mp hm⟩
    · rw [hnone] at hparse
      cases hparse
  · rintro ⟨number, height, hs, hn, hm⟩
    simp only [hs.parse_eq, Decimal.readUInt64_ok_iff.mpr hn, Decimal.readUInt64_ok_iff.mpr hm]

/-- A text is refused with just the fault that it has. -/
theorem parse_error_iff : parse text = .error fault ↔ HasParseFault text fault := by
  constructor
  · intro hparse
    obtain ⟨number, height, hs⟩ | ⟨hhyphen, hnone⟩ := splitsInto_or_parse_eq text
    · rw [hs.parse_eq] at hparse
      split at hparse
      · next f hn =>
        obtain rfl := Except.error.inj hparse
        exact ⟨number, height, hs, Decimal.readUInt64_error_iff.mp hn⟩
      · next n hn =>
        split at hparse
        · next f hm =>
          obtain rfl := Except.error.inj hparse
          exact ⟨number, height, hs, ⟨n, Decimal.readUInt64_ok_iff.mp hn⟩,
            Decimal.readUInt64_error_iff.mp hm⟩
        · cases hparse
    · rw [hnone] at hparse
      obtain rfl := Except.error.inj hparse
      exact ⟨rfl, hhyphen⟩
  · cases fault with
    | noHyphen shown =>
        rintro ⟨rfl, hhyphen⟩
        rw [parse, Text.cutFirst?_eq_none_iff.mpr hhyphen]
    | badNumber f =>
        rintro ⟨number, height, hs, hn⟩
        rw [hs.parse_eq, Decimal.readUInt64_error_iff.mpr hn]
    | badHeight f =>
        rintro ⟨number, height, hs, ⟨n, hn⟩, hm⟩
        simp only [hs.parse_eq, Decimal.readUInt64_ok_iff.mpr hn,
          Decimal.readUInt64_error_iff.mpr hm]

theorem writtenAs_text (h : Height) : h.WrittenAs h.text :=
  ⟨Decimal.digits h.revisionNumber.toNat, Decimal.digits h.revisionHeight.toNat,
    String.toList_ofList, Decimal.denotes_digits _, Decimal.denotes_digits _⟩

theorem parse_text (h : Height) : parse h.text = .ok h := parse_ok_iff.mpr h.writtenAs_text

theorem text_inj {a b : Height} : a.text = b.text ↔ a = b := by
  refine ⟨fun h => ?_, fun h => by rw [h]⟩
  have hparse := parse_text a
  rw [h, parse_text b] at hparse
  exact (Except.ok.inj hparse).symm

theorem notMem_text {c : Char} (hc : Decimal.isDigit c = false) (hhyphen : c ≠ '-')
    (h : Height) : c ∉ h.text.toList := by
  simp [text, chars, Decimal.notMem_digits hc, hhyphen]

theorem WrittenAs.count_hyphen (hw : h.WrittenAs text) : text.toList.count '-' = 1 := by
  obtain ⟨number, height, htext, hn, hm⟩ := hw
  rw [htext, List.count_append, List.count_cons_self,
    List.count_eq_zero.mpr (hyphen_notMem_of_denotes hn),
    List.count_eq_zero.mpr (hyphen_notMem_of_denotes hm)]

theorem WrittenAs.mem_text (hw : h.WrittenAs text) {c : Char} (hc : c ∈ text.toList) :
    Decimal.isDigit c = true ∨ c = '+' ∨ c = '-' := by
  obtain ⟨number, height, htext, hn, hm⟩ := hw
  rw [htext, List.mem_append, List.mem_cons] at hc
  obtain hc | rfl | hc := hc
  · exact (isDigit_or_plus_of_denotes hn hc).imp_right .inl
  · exact .inr (.inr rfl)
  · exact (isDigit_or_plus_of_denotes hm hc).imp_right .inl

/-- A height is read back from its text, so that no two heights have the same one.  A text is read as a
height just if it splits at its first hyphen into the two numerals.  Any other text is refused for a
fault that it has, in particular one with another hyphen or with a character that is no part of a
numeral. -/
theorem text_codec :
    (∀ h : Height, parse h.text = .ok h) ∧ Function.Injective Height.text ∧
    (∀ (s : String) (h : Height), parse s = .ok h ↔ ∃ number height, SplitsInto s number height ∧
      Denotes number h.revisionNumber.toNat ∧ Denotes height h.revisionHeight.toNat) ∧
    (∀ (s : String) (fault : ParseFault), parse s = .error fault ↔ HasParseFault s fault) ∧
    ∀ s : String, (s.toList.count '-' ≠ 1 ∨
        ∃ c ∈ s.toList, Decimal.isDigit c = false ∧ c ≠ '+' ∧ c ≠ '-') →
      ∃ fault, parse s = .error fault := by
  refine ⟨parse_text, fun a b => text_inj.mp, fun s h => parse_ok_iff.trans writtenAs_iff,
    fun s fault => parse_error_iff, ?_⟩
  intro s hs
  cases hparse : parse s with
  | error fault => exact ⟨fault, rfl⟩
  | ok h =>
      have hw := parse_ok_iff.mp hparse
      obtain hcount | ⟨c, hc, hdigit, hplus, hhyphen⟩ := hs
      · exact absurd hw.count_hyphen hcount
      · have hmem := hw.mem_text hc
        simp [hdigit, hplus, hhyphen] at hmem

example : ["+01-+007", "1", "-1-2", "1-", "1-2-3", " 1-2", "1-18446744073709551616"].map
    (fun s => (parse s).toOption) = [some ⟨1, 7⟩, none, none, none, none, none, none] := by
  decide +kernel

end PacketRelay.Height
