import PacketRelay.Text.Find

/-!
# Cutting and joining text

A text is the parts that it is split into with the separator between them, and parts without the
separator are what such a text is split into.  The first cut leaves no separator before it, the last
one none behind it.  What lacks the separator occurs in a text only inside one of the parts.
-/

namespace PacketRelay.Text

variable {sep : Char} {text before after : List Char}

theorem split_eq_splitOn (sep : Char) (text : List Char) : split sep text = text.splitOn sep := by
  induction text with
  | nil => rfl
  | cons c cs ih =>
      rw [List.splitOn_eq_splitOnP] at ih ⊢
      rw [split, List.splitOnP_cons_eq_if_modifyHead, ih]
      simp only [beq_iff_eq]
      split
      · rfl
      · cases hparts : cs.splitOnP (· == sep) with
        | nil => exact absurd hparts (List.splitOnP_ne_nil _ cs)
        | cons part parts => rfl

theorem split_of_notMem (htext : sep ∉ text) : split sep text = [text] := by
  rw [split_eq_splitOn, List.splitOn_eq_singleton htext]

theorem split_append_cons (sep : Char) (before after : List Char) :
    split sep (before ++ sep :: after) = split sep before ++ split sep after := by
  simp only [split_eq_splitOn, List.splitOn_eq_splitOnP]
  exact List.splitOnP_append_cons before after (beq_self_eq_true sep)

theorem notMem_of_mem_split {part : List Char} (hpart : part ∈ split sep text) : sep ∉ part := by
  induction text generalizing part with
  | nil =>
      rw [split, List.mem_singleton] at hpart
      simp [hpart]
  | cons c cs ih =>
      rw [split] at hpart
      split at hpart
      · obtain rfl | hpart := List.mem_cons.mp hpart
        · exact List.not_mem_nil
        · exact ih hpart
      · next hc =>
        cases hparts : split sep cs with
        | nil =>
            rw [hparts, List.mem_singleton] at hpart
            simp [hpart, Ne.symm hc]
        | cons first parts =>
            rw [hparts] at hpart ih
            obtain rfl | hpart := List.mem_cons.mp hpart
            · simp [Ne.symm hc, ih List.mem_cons_self]
            · exact ih (List.mem_cons_of_mem first hpart)

/-- A text is split into just one list of parts: the one that makes up the text again and has the
separator nowhere inside a part. -/
theorem split_eq_iff {parts : List (List Char)} :
    split sep text = parts ↔
      parts ≠ [] ∧ text = [sep].intercalate parts ∧ ∀ part ∈ parts, sep ∉ part := by
  constructor
  · rintro rfl
    refine ⟨?_, ?_, fun part => notMem_of_mem_split⟩
    · rw [split_eq_splitOn]
      exact List.splitOn_ne_nil sep text
    · rw [split_eq_splitOn, List.intercalate_splitOn]
  · rintro ⟨hne, rfl, hparts⟩
    rw [split_eq_splitOn, List.splitOn_intercalate sep hparts hne]

/-- The first cut is the one before which the separator does not occur. -/
theorem cutFirst?_eq_some_iff :
    cutFirst? sep text = some (before, after) ↔ text = before ++ sep :: after ∧ sep ∉ before := by
  refine ⟨eq_of_cutFirst?, ?_⟩
  rintro ⟨rfl, hbefore⟩
  exact cutFirst?_append hbefore after

theorem cutLast?_eq_none_iff : cutLast? sep text = none ↔ sep ∉ text := by
  induction text with
  | nil => simp [cutLast?]
  | cons c cs ih =>
      rw [cutLast?, List.mem_cons, not_or, ← ih]
      cases cutLast? sep cs with
      | none => simp [eq_comm]
      | some parts => simp

theorem eq_of_cutLast? (h : cutLast? sep text = some (before, after)) :
    text = before ++ sep :: after ∧ sep ∉ after := by
  induction text generalizing before with
  | nil => cases h
  | cons c cs ih =>
      rw [cutLast?] at h
      split at h
      · next b a hcut =>
        cases h
        obtain ⟨rfl, hafter⟩ := ih hcut
        exact ⟨rfl, hafter⟩
      · next hnone =>
        split at h
        · next hc =>
          cases h
          exact ⟨by rw [hc, List.nil_append], cutLast?_eq_none_iff.mp hnone⟩
        · cases h

theorem cutLast?_append (before : List Char) (hafter : sep ∉ after) :
    cutLast? sep (before ++ sep :: after) = some (before, after) := by
  induction before with
  | nil => rw [List.nil_append, cutLast?, cutLast?_eq_none_iff.mpr hafter, if_pos rfl]
  | cons c cs ih => rw [List.cons_append, cutLast?, ih]

/-- The last cut is the one behind which the separator does not occur. -/
theorem cutLast?_eq_some_iff :
    cutLast? sep text = some (before, after) ↔ text = before ++ sep :: after ∧ sep ∉ after := by
  refine ⟨eq_of_cutLast?, ?_⟩
  rintro ⟨rfl, hafter⟩
  exact cutLast?_append before hafter

/-- The last part is the whole text, or what stands behind the last separator. -/
theorem getLast?_split_eq_some_iff {last : List Char} :
    (split sep text).getLast? = some last ↔
      sep ∉ last ∧ (text = last ∨ ∃ before, text = before ++ sep :: last) := by
  constructor
  · intro hlast
    refine ⟨notMem_of_mem_split (List.mem_of_getLast? hlast), ?_⟩
    cases hcut : cutLast? sep text with
    | none =>
        rw [split_of_notMem (cutLast?_eq_none_iff.mp hcut)] at hlast
        exact .inl (Option.some.inj hlast)
    | some cut =>
        obtain ⟨rfl, hafter⟩ := eq_of_cutLast? hcut
        rw [split_append_cons, split_of_notMem hafter, List.getLast?_concat] at hlast
        exact .inr ⟨cut.1, by rw [Option.some.inj hlast]⟩
  · rintro ⟨hlast, rfl | ⟨before, rfl⟩⟩
    · rw [split_of_notMem hlast, List.getLast?_singleton]
    · rw [split_append_cons, split_of_notMem hlast, List.getLast?_concat]

section Occurrences

variable {needle : List Char} {c d : Char}

theorem infix_cons_iff_of_head?_ne (hne : needle ≠ []) (hc : needle.head? ≠ some c) :
    needle <:+: c :: after ↔ needle <:+: after := by
  refine List.infix_cons_iff.trans ⟨fun h => h.resolve_left ?_, .inr⟩
  rintro ⟨rest, hrest⟩
  obtain ⟨d, ds, rfl⟩ := List.exists_cons_of_ne_nil hne
  obtain ⟨rfl, _⟩ := List.cons.inj hrest
  exact hc rfl

/-- A text does not reach across a character that it lacks. -/
theorem infix_append_cons_iff (hc : c ∉ needle) :
    needle <:+: before ++ c :: after ↔ needle <:+: before ∨ needle <:+: after := by
  constructor
  · intro h
    obtain hbefore | hafter | ⟨left, right, rfl, hleft, hright⟩ := List.infix_append_iff.mp h
    · exact .inl hbefore
    · obtain hprefix | hafter := List.infix_cons_iff.mp hafter
      · cases needle with
        | nil => exact .inl (List.nil_infix)
        | cons d ds =>
            obtain ⟨rfl, _⟩ := List.cons_prefix_cons.mp hprefix
            exact absurd List.mem_cons_self hc
      · exact .inr hafter
    · cases right with
      | nil => exact .inl (by simpa using hleft.isInfix)
      | cons d ds =>
          obtain ⟨rfl, _⟩ := List.cons_prefix_cons.mp hright
          exact absurd (List.mem_append_right left List.mem_cons_self) hc
  · rintro (h | h)
    · exact h.trans (List.prefix_append _ _).isInfix
    · exact h.trans (List.suffix_append_of_suffix (List.suffix_cons c after)).isInfix

/-- A text occurs in joined parts if it occurs in one of them, as long as it neither holds the first
character of the separator nor begins with the second one. -/
theorem infix_intercalate_iff (hne : needle ≠ []) (hc : c ∉ needle) (hd : needle.head? ≠ some d)
    {parts : List (List Char)} :
    needle <:+: [c, d].intercalate parts ↔ ∃ part ∈ parts, needle <:+: part := by
  induction parts with
  | nil => simp [hne]
  | cons part parts ih =>
      cases parts with
      | nil => simp
      | cons next parts =>
          rw [List.intercalate_cons_cons, List.append_assoc, List.cons_append, List.singleton_append,
            infix_append_cons_iff hc, infix_cons_iff_of_head?_ne hne hd, ih]
          simp

end Occurrences

end PacketRelay.Text
