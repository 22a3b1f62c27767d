import Mathlib.Data.List.TakeWhile
import PacketRelay.Proofs.Decimal.Numerals

/-!
# Texts that are no numerals

The reader of unsigned numerals stops at the first character at which what it has read is no numeral
below the bound any more.  The fault that it reports tells what is wrong there: nothing was read, the
character is no digit, or the digits up to it make too large a number.
-/

namespace PacketRelay.Decimal

variable {bound acc : Nat} {cs : List Char} {f : NumeralFault}

/-- The text behind an optional plus sign. -/
def unsigned : List Char → List Char
  | '+' :: cs => cs
  | cs => cs

/-- What the fault says of a text: it is empty, after digits that are below the bound it goes on with
another character or has none at all, or it begins with digits whose value reaches the bound. -/
def HasFault (bound : Nat) (cs : List Char) : NumeralFault → Prop
  | .empty => cs = []
  | .notADigit => cs = ['+'] ∨ ∃ ds c rest, unsigned cs = ds ++ c :: rest ∧ IsRun ds ∧
      valueOf ds < bound ∧ isDigit c = false
  | .tooLarge => ∃ ds rest, unsigned cs = ds ++ rest ∧ IsRun ds ∧ bound ≤ valueOf ds

theorem readDigits_append_run {ds : List Char} (hds : IsRun ds) (hbound : 0 < bound)
    (rest : List Char) : readDigits bound 0 (ds ++ rest) =
      if valueOf ds < bound then readDigits bound (valueOf ds) rest else .error .tooLarge := by
  rw [readDigits_append, readDigits_run hds hbound, ← valueOf]
  split <;> rfl

theorem readDigits_cons_of_not_digit {c : Char} (hc : isDigit c = false) (rest : List Char) :
    readDigits bound acc (c :: rest) = .error .notADigit := by
  have hnone : digitValue? c = none := by simpa [isDigit] using hc
  rw [readDigits, hnone]

theorem readDigits_error_iff (hbound : 0 < bound) : readDigits bound 0 cs = .error f ↔
    (f = .notADigit ∧ ∃ ds c rest, cs = ds ++ c :: rest ∧ IsRun ds ∧ valueOf ds < bound ∧
      isDigit c = false) ∨
    f = .tooLarge ∧ ∃ ds rest, cs = ds ++ rest ∧ IsRun ds ∧ bound ≤ valueOf ds := by
  constructor
  · intro h
    have hrun : IsRun (cs.takeWhile isDigit) := fun c => List.mem_takeWhile_imp
    have hcs : cs = cs.takeWhile isDigit ++ cs.dropWhile isDigit :=
      List.takeWhile_append_dropWhile.symm
    rw [hcs, readDigits_append_run hrun hbound] at h
    split at h
    · next hlt =>
      cases hrest : cs.dropWhile isDigit with
      | nil =>
          rw [hrest] at h
          cases h
      | cons c rest =>
          have hstop := List.head?_dropWhile_not isDigit cs
          rw [hrest] at h hstop
          rw [readDigits_cons_of_not_digit hstop] at h
          obtain rfl := Except.error.inj h
          exact .inl ⟨rfl, _, c, rest, hrest ▸ hcs, hrun, hlt, hstop⟩
    · next hge =>
      obtain rfl := Except.error.inj h
      exact .inr ⟨rfl, _, _, hcs, hrun, Nat.le_of_not_lt hge⟩
  · rintro (⟨rfl, ds, c, rest, rfl, hds, hlt, hc⟩ | ⟨rfl, ds, rest, rfl, hds, hge⟩)
    · rw [readDigits_append_run hds hbound, if_pos hlt, readDigits_cons_of_not_digit hc]
    · rw [readDigits_append_run hds hbound, if_neg (Nat.not_lt.mpr hge)]

theorem read_eq_readDigits (hne : cs ≠ []) (hplus : cs ≠ ['+']) :
    read bound cs = readDigits bound 0 (unsigned cs) := by
  unfold read unsigned
  split <;> simp_all

theorem hasFault_of_unsigned_eq_nil (hbound : 0 < bound) (hcs : unsigned cs = []) :
    HasFault bound cs f ↔ f = .empty ∧ cs = [] ∨ f = .notADigit ∧ cs = ['+'] := by
  cases f with
  | empty => simp [HasFault]
  | notADigit => simp [HasFault, hcs]
  | tooLarge =>
      refine iff_of_false ?_ (by simp)
      rintro ⟨ds, rest, hnil, _, hge⟩
      rw [hcs] at hnil
      rw [(List.nil_eq_append_iff.mp hnil).1] at hge
      exact Nat.not_lt.mpr hge hbound

theorem read_error_iff (hbound : 0 < bound) : read bound cs = .error f ↔ HasFault bound cs f := by
  by_cases hempty : cs = []
  · subst hempty
    rw [hasFault_of_unsigned_eq_nil hbound rfl]
    simp [read, eq_comm]
  by_cases hplus : cs = ['+']
  · subst hplus
    rw [hasFault_of_unsigned_eq_nil hbound rfl]
    simp [read, eq_comm]
  · rw [read_eq_readDigits hempty hplus, readDigits_error_iff hbound]
    cases f <;> simp [HasFault, hempty, hplus]

/-- The reader fails with just the fault that the text has. -/
theorem readUInt64_error_iff : readUInt64 cs = .error f ↔ HasFault (1 <<< 64) cs f := by
  rw [← read_error_iff (by decide), readUInt64]
  cases read (1 <<< 64) cs <;> simp [Except.map]

end PacketRelay.Decimal
