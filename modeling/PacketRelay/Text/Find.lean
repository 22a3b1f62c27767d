/-!
# Finding and cutting text

Whether a text occurs in another one, and cuts at the first or last occurrence of a character.
-/

namespace PacketRelay.Text

/-- Whether `needle` occurs in a text as consecutive characters. -/
def contains (needle : List Char) : List Char → Bool
  | [] => needle.isEmpty
  | c :: cs => needle.isPrefixOf (c :: cs) || contains needle cs

/-- The text up to the end of the first occurrence of `needle`. -/
def through? (needle : List Char) : List Char → Option (List Char)
  | [] => if needle.isEmpty then some [] else none
  | c :: cs =>
    if needle.isPrefixOf (c :: cs) then some needle else (through? needle cs).map (c :: ·)

/-- The parts before and after the first `sep`. -/
def cutFirst? (sep : Char) : List Char → Option (List Char × List Char)
  | [] => none
  | c :: cs =>
    if c = sep then some ([], cs)
    else (cutFirst? sep cs).map fun (before, after) => (c :: before, after)

/-- The parts before and after the last `sep`. -/
def cutLast? (sep : Char) : List Char → Option (List Char × List Char)
  | [] => none
  | c :: cs =>
    match cutLast? sep cs with
    | some (before, after) => some (c :: before, after)
    | none => if c = sep then some ([], cs) else none

def split (sep : Char) : List Char → List (List Char)
  | [] => [[]]
  | c :: cs =>
    if c = sep then [] :: split sep cs
    else match split sep cs with
      | [] => [[c]]
      | part :: parts => (c :: part) :: parts

theorem contains_iff {needle text : List Char} :
    contains needle text = true ↔ needle <:+: text := by
  induction text with
  | nil => cases needle <;> simp [contains, List.infix_nil]
  | cons c cs ih =>
    rw [contains, Bool.or_eq_true, ih, List.isPrefixOf_iff_prefix, List.infix_cons_iff]

theorem eq_of_cutFirst? {sep : Char} {text before after : List Char}
    (h : cutFirst? sep text = some (before, after)) :
    text = before ++ sep :: after ∧ sep ∉ before := by
  induction text generalizing before with
  | nil => simp [cutFirst?] at h
  | cons c cs ih =>
    by_cases hc : c = sep
    · simp only [cutFirst?, hc, if_true, Option.some.injEq, Prod.mk.injEq] at h
      obtain ⟨rfl, rfl⟩ := h
      simp [hc]
    · simp only [cutFirst?, hc, if_false, Option.map_eq_some_iff, Prod.mk.injEq, Prod.exists] at h
      obtain ⟨b, a, hba, rfl, rfl⟩ := h
      obtain ⟨rfl, hn⟩ := ih hba
      simp [hn, Ne.symm hc]

theorem cutFirst?_append {sep : Char} {before : List Char} (h : sep ∉ before) (after : List Char) :
    cutFirst? sep (before ++ sep :: after) = some (before, after) := by
  induction before with
  | nil => simp [cutFirst?]
  | cons c cs ih =>
    simp only [List.mem_cons, not_or] at h
    simp [cutFirst?, Ne.symm h.1, ih h.2]

theorem cutFirst?_eq_none_iff {sep : Char} {text : List Char} :
    cutFirst? sep text = none ↔ sep ∉ text := by
  induction text with
  | nil => simp [cutFirst?]
  | cons c cs ih =>
    by_cases hc : c = sep
    · simp [cutFirst?, hc]
    · simp [cutFirst?, hc, ih, Ne.symm hc]

end PacketRelay.Text
