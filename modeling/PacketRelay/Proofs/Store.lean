import PacketRelay.Proofs.Bytes
import PacketRelay.Proofs.Decimal.Canonical
import PacketRelay.Proofs.Height
import PacketRelay.Proofs.Text
import PacketRelay.Store

/-!
# Entries of the store and their keys

Identifiers have no slash in them, so the path of an entry is split into the segments that it was put
together from.  The segments tell the kind of the entry and everything that it is for, and no two
entries have the same key.
-/

namespace PacketRelay

namespace StoreKey

/-- The identifiers that an entry is for. -/
def identifiers : StoreKey → List String
  | .commitment port channel _ | .acknowledgement port channel _ | .receipt port channel _
  | .nextSequenceRecv port channel | .channelEnd port channel => [port, channel]
  | .clientState client | .consensusState client _ => [client]
  | .connection id => [id]

/-- The identifiers have no slash in them. -/
def SlashFree (k : StoreKey) : Prop := ∀ id ∈ k.identifiers, '/' ∉ id.toList

instance (k : StoreKey) : Decidable k.SlashFree :=
  inferInstanceAs (Decidable (∀ id ∈ k.identifiers, '/' ∉ id.toList))

variable {k k' : StoreKey}

theorem SlashFree.segments (hk : k.SlashFree) : ∀ segment ∈ k.segments, '/' ∉ segment.toList := by
  have hsequence (n : UInt64) : '/' ∉ (Decimal.text n.toNat).toList :=
    Decimal.notMem_text (by decide) _
  have hheight (h : Height) : '/' ∉ h.text.toList := h.notMem_text (by decide) (by decide)
  unfold SlashFree at hk
  cases k <;> simp_all [identifiers, StoreKey.segments]

theorem segments_inj : k.segments = k'.segments ↔ k = k' := by
  constructor
  · intro h
    cases k <;> cases k' <;> simp_all [segments, Decimal.text_inj, Height.text_inj, UInt64.toNat_inj]
  · intro h
    rw [h]

theorem SlashFree.split_path (hk : k.SlashFree) :
    Text.split '/' k.path.toList = k.segments.map String.toList := by
  refine Text.split_eq_iff.mpr ⟨by cases k <;> simp [StoreKey.segments], ?_, ?_⟩
  · rw [path, String.toList_intercalate]
    rfl
  · intro part hpart
    obtain ⟨segment, hsegment, rfl⟩ := List.mem_map.mp hpart
    exact hk.segments segment hsegment

/-- The bytes of a key tell which entry it is for. -/
theorem bytes_determine_entry (hk : k.SlashFree) (hk' : k'.SlashFree) :
    k.bytes = k'.bytes ↔ k = k' := by
  refine ⟨fun h => segments_inj.mp ?_, fun h => by rw [h]⟩
  have hpath : k.path = k'.path := Bytes.ofText_inj.mp h
  have hsegments : k.segments.map String.toList = k'.segments.map String.toList := by
    rw [← hk.split_path, ← hk'.split_path, hpath]
  exact (List.map_inj_right fun _ _ => String.toList_inj.mp).mp hsegments

/-- Consensus states of a client without a name, at heights that have the same digits. -/
theorem bytes_determine_entry_unnamed :
    (consensusState "" ⟨1, 11⟩).SlashFree ∧ (consensusState "" ⟨11, 1⟩).SlashFree ∧
      (consensusState "" ⟨1, 11⟩).bytes ≠ (consensusState "" ⟨11, 1⟩).bytes := by
  refine ⟨by decide, by decide, fun h => ?_⟩
  exact absurd ((bytes_determine_entry (by decide) (by decide)).mp h) (by decide)

/-- With slashes in them, identifiers may take the place of a segment. -/
example : (nextSequenceRecv "transfer" "0/channels/1").path =
    (nextSequenceRecv "transfer/channels/0" "1").path := by
  decide +kernel

end StoreKey

namespace StorePath

variable {path : String}

/-- The path names a store and reads a key of it. -/
def ReadsStore (path : String) : Prop :=
  ∃ store : String, '/' ∉ store.toList ∧ path = "/store/" ++ store ++ "/key"

theorem insistsOnProof_iff : insistsOnProof path = true ↔ ReadsStore path := by
  constructor
  · intro h
    unfold insistsOnProof at h
    split at h
    · next first second store last hparts =>
      simp only [Bool.and_eq_true, beq_iff_eq] at h
      obtain ⟨⟨rfl, rfl⟩, rfl⟩ := h
      obtain ⟨_, htext, hfree⟩ := Text.split_eq_iff.mp hparts
      refine ⟨String.ofList store, by simp [hfree], String.toList_inj.mp ?_⟩
      simp [htext]
    · cases h
  · rintro ⟨store, hstore, rfl⟩
    have hparts : Text.split '/' ("/store/" ++ store ++ "/key").toList =
        [[], "store".toList, store.toList, "key".toList] :=
      Text.split_eq_iff.mpr ⟨by simp, by simp, by simp [hstore]⟩
    rw [insistsOnProof, hparts]
    rfl

theorem asksForProof_iff :
    asksForProof path = true ↔ path = "key" ∨ ∃ before : String, path = before ++ "/key" := by
  have hkey : '/' ∉ "key".toList := by decide
  rw [asksForProof, beq_iff_eq, Text.getLast?_split_eq_some_iff, and_iff_right hkey,
    String.toList_inj]
  refine or_congr_right ⟨?_, ?_⟩
  · rintro ⟨before, hpath⟩
    exact ⟨String.ofList before, String.toList_inj.mp (by simp [hpath])⟩
  · rintro ⟨before, rfl⟩
    exact ⟨before.toList, by simp⟩

/-- A proof is asked for wherever it is insisted on. -/
theorem ReadsStore.asksForProof (h : ReadsStore path) : asksForProof path = true := by
  obtain ⟨store, _, rfl⟩ := h
  exact asksForProof_iff.mpr (.inr ⟨"/store/" ++ store, rfl⟩)

end StorePath

end PacketRelay
