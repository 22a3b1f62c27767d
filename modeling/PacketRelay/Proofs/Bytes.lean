import PacketRelay.Bytes

/-!
# Texts as bytes

The bytes of a text are those of its array, so different texts have different bytes, and the text is
read back from them.
-/

namespace PacketRelay.Bytes

theorem toList_loop (b : ByteArray) (i : Nat) (r : List UInt8) :
    ByteArray.toList.loop b i r = r.reverse ++ b.data.toList.drop i := by
  induction i, r using ByteArray.toList.loop.induct b with
  | case1 i r hi ih =>
      have hlt : i < b.data.toList.length := by simpa using hi
      have hget : b.get! i = b.data.toList[i] := by
        rw [Array.getElem_toList]
        exact getElem!_pos b.data i (by simpa using hi)
      rw [ByteArray.toList.loop, if_pos hi, ih, List.drop_eq_getElem_cons hlt, hget]
      simp
  | case2 i r hi =>
      have hge : b.data.toList.length ≤ i := by simpa using hi
      rw [ByteArray.toList.loop, if_neg hi, List.drop_eq_nil_of_le hge, List.append_nil]

theorem ofText_eq (s : String) : ofText s = s.toByteArray.data.toList := by
  rw [ofText, ByteArray.toList, toList_loop]
  simp

theorem ofText_inj {s t : String} : ofText s = ofText t ↔ s = t := by
  rw [ofText_eq, ofText_eq, Array.toList_inj, ← String.toByteArray_inj]
  exact ⟨ByteArray.ext, congrArg _⟩

theorem toText?_ofText (s : String) : toText? (ofText s) = some s := by
  rw [toText?, ofText_eq, Array.toArray_toList]
  simp [String.fromUTF8?, String.fromUTF8, s.isValidUTF8]

theorem length_ofText_ofList_le (cs : List Char) :
    (ofText (String.ofList cs)).length ≤ 4 * cs.length := by
  rw [ofText_eq, String.toByteArray_ofList, List.utf8Encode, List.data_toByteArray,
    List.toList_toArray]
  induction cs with
  | nil => exact Nat.le_refl 0
  | cons c cs ih =>
      have hsize := c.utf8Size_le_four
      rw [List.flatMap_cons, List.length_append, String.length_utf8EncodeChar, List.length_cons]
      omega

/-- An ASCII character is its own byte. -/
theorem ofText_ofList_of_ascii {cs : List Char} (hcs : ∀ c ∈ cs, c.toNat < 128) :
    ofText (String.ofList cs) = cs.map fun c => UInt8.ofNat c.toNat := by
  rw [ofText_eq, String.toByteArray_ofList, List.utf8Encode, List.data_toByteArray,
    List.toList_toArray]
  induction cs with
  | nil => rfl
  | cons c cs ih =>
      obtain ⟨hc, hrest⟩ := List.forall_mem_cons.mp hcs
      have hsmall : c.val.toNat ≤ 127 := Nat.le_of_lt_succ hc
      rw [List.flatMap_cons, ih hrest, String.utf8EncodeChar, if_pos hsmall]
      rfl

end PacketRelay.Bytes
