import Mathlib.Data.List.Basic
import Mathlib.Data.List.TakeWhile
import PacketRelay.Proofs.Decimal.Numerals

/-!
# The runs of digits in a text

A run of digits is maximal if no digit stands directly before or behind it.  The runs that are found
in a text are its maximal ones, from left to right: each is found after those of the text before it
and ahead of those of the text behind it, and nothing else is found.
-/

namespace PacketRelay.Decimal

variable {text before run after before' run' after' : List Char} {c : Char}

/-- A run of digits between two parts of a text that have no digit next to it. -/
structure MaximalRun (text before run after : List Char) : Prop where
  text_eq : text = before ++ (run ++ after)
  isRun : IsRun run
  ne_nil : run ≠ []
  starts : ∀ c ∈ before.getLast?, isDigit c = false
  stops : ∀ c ∈ after.head?, isDigit c = false

/-- The text has just two maximal runs of digits, in this order. -/
def HasTwoRuns (text first second : List Char) : Prop :=
  ∃ before after before' after',
    MaximalRun text before first after ∧ MaximalRun text before' second after' ∧
      before.length < before'.length ∧
      ∀ b r a, MaximalRun text b r a → b = before ∨ b = before'

theorem runs_go_append_cons (hc : isDigit c = false) (run text after : List Char) :
    runs.go run (text ++ c :: after) = runs.go run text ++ runs.go [] after := by
  induction text generalizing run with
  | nil => by_cases hrun : run = [] <;> simp [runs.go, hc, hrun]
  | cons d text ih =>
      simp only [List.cons_append, runs.go, ih]
      split
      · rfl
      · split <;> rfl

/-- A text may be cut at a character that is no digit. -/
theorem runs_append_cons (hc : isDigit c = false) (text after : List Char) :
    runs (text ++ c :: after) = runs text ++ runs after :=
  runs_go_append_cons hc [] text after

theorem runs_append_of_getLast? (hbefore : ∀ c ∈ before.getLast?, isDigit c = false)
    (text : List Char) : runs (before ++ text) = runs before ++ runs text := by
  obtain rfl | ⟨before, c, rfl⟩ := List.eq_nil_or_concat' before
  · rfl
  · have hc : isDigit c = false := hbefore c (by simp)
    have hlast : runs (before ++ [c]) = runs before := by
      rw [runs_append_cons hc]
      exact List.append_nil _
    rw [List.append_assoc, List.singleton_append, runs_append_cons hc, hlast]

theorem runs_append_of_head? (hafter : ∀ c ∈ after.head?, isDigit c = false)
    (text : List Char) : runs (text ++ after) = runs text ++ runs after := by
  cases after with
  | nil =>
      rw [List.append_nil]
      exact (List.append_nil _).symm
  | cons c after =>
      have hc : isDigit c = false := hafter c rfl
      have hhead : runs (c :: after) = runs after := runs_append_cons hc [] after
      rw [runs_append_cons hc, hhead]

theorem runs_of_digitFree (htext : DigitFree text) : runs text = [] := by
  rw [runs, ← List.append_nil text, runs_go_digitFree htext]
  rfl

theorem runs_of_isRun (hrun : IsRun run) (hne : run ≠ []) : runs run = [run] := by
  rw [runs, ← List.append_nil run, runs_go_run hrun]
  simp [runs.go, hne]

/-- A run makes the text end with a digit. -/
theorem exists_mem_getLast?_append (hrun : IsRun run) (hne : run ≠ []) (before : List Char) :
    ∃ c ∈ (before ++ run).getLast?, isDigit c = true := by
  refine ⟨run.getLast hne, ?_, hrun _ (List.getLast_mem hne)⟩
  simp [List.getLast?_append, List.getLast?_eq_some_getLast hne]

namespace MaximalRun

theorem runs_eq (h : MaximalRun text before run after) :
    runs text = runs before ++ run :: runs after := by
  rw [h.text_eq, runs_append_of_getLast? h.starts, runs_append_of_head? h.stops,
    runs_of_isRun h.isRun h.ne_nil, List.singleton_append]

/-- A maximal run that begins earlier is one of the text before the later run. -/
theorem earlier (h : MaximalRun text before run after) (h' : MaximalRun text before' run' after')
    (hlt : before.length < before'.length) :
    ∃ between, MaximalRun before' before run between := by
  have hsame : before ++ (run ++ after) = before' ++ (run' ++ after') :=
    h.text_eq.symm.trans h'.text_eq
  obtain ⟨rest, rfl, hrest⟩ | ⟨rest, rfl, _⟩ := List.append_eq_append_iff.mp hsame
  · obtain ⟨between, rfl, hafter⟩ | ⟨tail, rfl, _⟩ := List.append_eq_append_iff.mp hrest
    · refine ⟨between, rfl, h.isRun, h.ne_nil, h.starts, fun c hc => h.stops c ?_⟩
      rw [hafter, List.head?_append, Option.mem_def.mp hc]
      rfl
    -- the later run would begin inside the earlier one, right behind a digit
    · have hne : rest ≠ [] := by
        rintro rfl
        simp at hlt
      have hrun : IsRun rest := fun c hc => h.isRun c (List.mem_append_left tail hc)
      obtain ⟨c, hc, hdigit⟩ := exists_mem_getLast?_append hrun hne before
      rw [h'.starts c hc] at hdigit
      cases hdigit
  · rw [List.length_append] at hlt
    omega

theorem length_runs_lt (h : MaximalRun text before run after)
    (h' : MaximalRun text before' run' after') (hlt : before.length < before'.length) :
    (runs before).length < (runs before').length := by
  obtain ⟨between, hearlier⟩ := h.earlier h' hlt
  rw [hearlier.runs_eq, List.length_append, List.length_cons]
  omega

/-- A maximal run begins earlier than another one if fewer runs are found before it. -/
theorem length_lt_iff (h : MaximalRun text before run after)
    (h' : MaximalRun text before' run' after') :
    before.length < before'.length ↔ (runs before).length < (runs before').length := by
  refine ⟨h.length_runs_lt h', fun hfewer => ?_⟩
  obtain hlt | heq | hgt := Nat.lt_trichotomy before.length before'.length
  · exact hlt
  · rw [(List.append_inj (h.text_eq.symm.trans h'.text_eq) heq).1] at hfewer
    exact absurd hfewer (Nat.lt_irrefl _)
  · exact absurd (h'.length_runs_lt h hgt) (Nat.lt_asymm hfewer)

/-- Maximal runs with equally many runs before them are at the same place. -/
theorem before_eq (h : MaximalRun text before run after)
    (h' : MaximalRun text before' run' after')
    (hcount : (runs before).length = (runs before').length) : before = before' := by
  have hnot := (h.length_lt_iff h').not.mpr (by omega)
  have hnot' := (h'.length_lt_iff h).not.mpr (by omega)
  exact (List.append_inj (h.text_eq.symm.trans h'.text_eq) (by omega)).1

/-- A maximal run of the text behind another one. -/
theorem behind (h : MaximalRun text before run after)
    (h' : MaximalRun after before' run' after') :
    MaximalRun text (before ++ (run ++ before')) run' after' ∧
      MaximalRun (before ++ (run ++ before')) before run before' := by
  have hne : before' ≠ [] := by
    rintro rfl
    obtain ⟨c, rest, hrun'⟩ := List.exists_cons_of_ne_nil h'.ne_nil
    have hdigit : isDigit c = true := h'.isRun c (by simp [hrun'])
    rw [h.stops c (by simp [h'.text_eq, hrun'])] at hdigit
    cases hdigit
  constructor
  · refine ⟨by simp [h.text_eq, h'.text_eq], h'.isRun, h'.ne_nil, fun c hc => ?_, h'.stops⟩
    refine h'.starts c ?_
    rwa [← List.append_assoc, List.getLast?_append_of_ne_nil _ hne] at hc
  · refine ⟨rfl, h.isRun, h.ne_nil, h.starts, fun c hc => h.stops c ?_⟩
    rw [h'.text_eq, List.head?_append, Option.mem_def.mp hc]
    rfl

end MaximalRun

/-- A text has no digit, or it has a first maximal run. -/
theorem digitFree_or_exists_maximalRun (text : List Char) :
    DigitFree text ∨ ∃ before run after, MaximalRun text before run after ∧ DigitFree before := by
  induction text with
  | nil => exact .inl (by simp [DigitFree])
  | cons c text ih =>
      cases hc : isDigit c with
      | true =>
          refine .inr ⟨[], (c :: text).takeWhile isDigit, (c :: text).dropWhile isDigit, ?_,
            by simp [DigitFree]⟩
          refine ⟨List.takeWhile_append_dropWhile.symm, fun d => List.mem_takeWhile_imp,
            by simp [hc], by simp, fun d hd => ?_⟩
          have hstop := List.head?_dropWhile_not isDigit (c :: text)
          rwa [Option.mem_def.mp hd] at hstop
      | false =>
          obtain hfree | ⟨before, run, after, h, hbefore⟩ := ih
          · exact .inl (List.forall_mem_cons.mpr ⟨hc, hfree⟩)
          · have hfree : DigitFree (c :: before) := List.forall_mem_cons.mpr ⟨hc, hbefore⟩
            refine .inr ⟨c :: before, run, after, ?_, hfree⟩
            exact ⟨congrArg (c :: ·) h.text_eq, h.isRun, h.ne_nil,
              fun d hd => hfree d (List.mem_of_mem_getLast? hd), h.stops⟩

theorem exists_first_maximalRun {first : List Char} {rest : List (List Char)}
    (hruns : runs text = first :: rest) :
    ∃ before after, MaximalRun text before first after ∧ runs before = [] ∧ runs after = rest := by
  obtain hfree | ⟨before, run, after, h, hbefore⟩ := digitFree_or_exists_maximalRun text
  · rw [runs_of_digitFree hfree] at hruns
    cases hruns
  · rw [h.runs_eq, runs_of_digitFree hbefore] at hruns
    obtain ⟨rfl, hrest⟩ := List.cons.inj hruns
    exact ⟨before, after, h, runs_of_digitFree hbefore, hrest⟩

/-- Every run that is found is maximal, and is found at its place among the others. -/
theorem exists_maximalRun {earlier later : List (List Char)}
    (hruns : runs text = earlier ++ run :: later) :
    ∃ before after, MaximalRun text before run after ∧ runs before = earlier := by
  induction earlier generalizing text with
  | nil =>
      obtain ⟨before, after, h, hbefore, _⟩ := exists_first_maximalRun hruns
      exact ⟨before, after, h, hbefore⟩
  | cons first earlier ih =>
      obtain ⟨before, rest, hfirst, hbefore, hrest⟩ := exists_first_maximalRun hruns
      obtain ⟨between, after, h, hearlier⟩ := ih hrest
      obtain ⟨hbehind, hahead⟩ := hfirst.behind h
      refine ⟨_, after, hbehind, ?_⟩
      rw [hahead.runs_eq, hbefore, hearlier, List.nil_append]

/-- A text has just two maximal runs if just these two are found in it. -/
theorem hasTwoRuns_iff {first second : List Char} :
    HasTwoRuns text first second ↔ runs text = [first, second] := by
  constructor
  · rintro ⟨b₁, a₁, b₂, a₂, h₁, h₂, hlt, honly⟩
    obtain ⟨between, hearlier⟩ := h₁.earlier h₂ hlt
    have hruns : runs text = (runs b₁ ++ first :: runs between) ++ second :: runs a₂ := by
      rw [h₂.runs_eq, hearlier.runs_eq]
    have hplace (i : Nat) (hi : i < (runs text).length) :
        i = (runs b₁).length ∨ i = (runs b₁).length + 1 + (runs between).length := by
      have hsplit : runs text = (runs text).take i ++ (runs text)[i] :: (runs text).drop (i + 1) := by
        simp
      obtain ⟨before, after, h, hbefore⟩ := exists_maximalRun hsplit
      have hcount : (runs before).length = i := by
        rw [hbefore, List.length_take_of_le (Nat.le_of_lt hi)]
      obtain rfl | rfl := honly before _ after h
      · exact .inl hcount.symm
      · rw [← hcount, hearlier.runs_eq, List.length_append, List.length_cons]
        omega
    have hlength := congrArg List.length hruns
    simp only [List.length_append, List.length_cons] at hlength
    -- the places 0, 1 and 2 would all be taken if there were another run
    have hleft : (runs b₁).length = 0 := by
      have hzero := hplace 0 (by omega)
      omega
    have hmiddle : (runs between).length = 0 := by
      have hone := hplace 1 (by omega)
      omega
    have hright : (runs a₂).length = 0 := by
      by_contra hmore
      have htwo := hplace 2 (by omega)
      omega
    rw [hruns, List.length_eq_zero_iff.mp hleft, List.length_eq_zero_iff.mp hmiddle,
      List.length_eq_zero_iff.mp hright]
    rfl
  · intro hruns
    have hsecond : runs text = [first] ++ second :: [] := hruns
    obtain ⟨b₁, a₁, h₁, hb₁, _⟩ := exists_first_maximalRun hruns
    obtain ⟨b₂, a₂, h₂, hb₂⟩ := exists_maximalRun hsecond
    refine ⟨b₁, a₁, b₂, a₂, h₁, h₂, (h₁.length_lt_iff h₂).mpr (by simp [hb₁, hb₂]), ?_⟩
    intro b r a h
    have hlength := congrArg List.length h.runs_eq
    simp only [hruns, List.length_append, List.length_cons, List.length_nil] at hlength
    obtain hfirst | hsecond : (runs b).length = 0 ∨ (runs b).length = 1 := by omega
    · exact .inl (h.before_eq h₁ (by simpa [hb₁] using hfirst))
    · exact .inr (h.before_eq h₂ (by simpa [hb₂] using hsecond))

end PacketRelay.Decimal
