import Mathlib.Computability.Language
import PacketRelay.ChainId
import PacketRelay.Proofs.Decimal.Canonical
import PacketRelay.Proofs.Text

/-!
# The revision of a chain

An identifier with a revision is a name on one line, a hyphen, and the numeral of the revision.  Such
identifiers are the words of a regular format, and in these the revision is all that stands behind
the last hyphen, so that it can be read without regard to the name.
-/

namespace PacketRelay.ChainId

open Computability

/-- A name that a revision may follow: one line whose last character is no hyphen. -/
def IsName (name : List Char) : Prop :=
  name ≠ [] ∧ '\n' ∉ name ∧ name.getLast? ≠ some '-'

/-- The identifier is a name with the revision `n`, which is written without leading zeros. -/
def HasRevision (id : String) (n : Nat) : Prop :=
  ∃ name : String, IsName name.toList ∧ id = name ++ "-" ++ Decimal.text n

theorem isName_iff {name : List Char} : isName name = true ↔ IsName name := by
  rw [isName, IsName]
  cases hlast : name.getLast? with
  | none => simp [List.getLast?_eq_none_iff.mp hlast]
  | some c =>
      have hne : name ≠ [] := by
        rintro rfl
        cases hlast
      simp [hne]

theorem isPositiveNumeral_iff {ds : List Char} :
    isPositiveNumeral ds = true ↔ ∃ n, 0 < n ∧ ds = Decimal.digits n := by
  have hdigits : isPositiveNumeral ds = true ↔
      ds ≠ [] ∧ ds.head? ≠ some '0' ∧ Decimal.IsRun ds := by
    cases ds <;> simp [isPositiveNumeral, Decimal.IsRun]
  rw [hdigits]
  constructor
  · rintro ⟨hne, hhead, hds⟩
    exact ⟨_, Decimal.valueOf_pos hds hne hhead, (Decimal.digits_valueOf hds hne hhead).symm⟩
  · rintro ⟨n, hn, rfl⟩
    exact ⟨Decimal.digits_ne_nil n, Decimal.head?_digits_ne_zero hn, Decimal.isRun_digits n⟩

theorem hyphen_notMem_digits (n : Nat) : '-' ∉ Decimal.digits n :=
  Decimal.notMem_digits (by decide) n

theorem hasRevision_iff {id : String} {n : Nat} :
    HasRevision id n ↔
      ∃ name, IsName name ∧ Text.cutLast? '-' id.toList = some (name, Decimal.digits n) := by
  simp only [Text.cutLast?_eq_some_iff, hyphen_notMem_digits, not_false_eq_true, and_true]
  constructor
  · rintro ⟨name, hname, rfl⟩
    exact ⟨name.toList, hname, by simp [Decimal.text]⟩
  · rintro ⟨name, hname, hid⟩
    refine ⟨String.ofList name, by rwa [String.toList_ofList], String.toList_inj.mp ?_⟩
    simp [hid, Decimal.text]

/-- An identifier has at most one revision. -/
theorem HasRevision.unique {id : String} {m n : Nat} (hm : HasRevision id m)
    (hn : HasRevision id n) : m = n := by
  obtain ⟨name, _, hcut⟩ := hasRevision_iff.mp hm
  obtain ⟨name', _, hcut'⟩ := hasRevision_iff.mp hn
  rw [hcut, Option.some.injEq, Prod.mk.injEq] at hcut'
  exact Decimal.digits_inj.mp hcut'.2

theorem revision_of_hasRevision {id : String} {n : Nat} (h : HasRevision id n) (hn : 0 < n) :
    revision id = ((Decimal.readUInt64 (Decimal.digits n)).toOption).getD 0 := by
  obtain ⟨name, hname, hcut⟩ := hasRevision_iff.mp h
  have hnumeral := isPositiveNumeral_iff.mpr ⟨n, hn, rfl⟩
  rw [revision, hcut]
  simp only [isName_iff.mpr hname, hnumeral, Bool.and_self, if_true]
  cases Decimal.readUInt64 (Decimal.digits n) <;> rfl

theorem revision_eq_of_lt {id : String} {n : Nat} (h : HasRevision id n) (hn : 0 < n)
    (hlt : n < 1 <<< 64) : (revision id).toNat = n := by
  have hsize : n < UInt64.size := by simpa using hlt
  rw [revision_of_hasRevision h hn, Decimal.toOption_readUInt64_digits, if_pos hlt,
    Option.getD_some, UInt64.toNat_ofNat_of_lt' hsize]

theorem revision_eq_zero_of_ge {id : String} {n : Nat} (h : HasRevision id n)
    (hge : 1 <<< 64 ≤ n) : revision id = 0 := by
  have hn : 0 < n := Nat.lt_of_lt_of_le (by decide) hge
  rw [revision_of_hasRevision h hn, Decimal.toOption_readUInt64_digits,
    if_neg (Nat.not_lt.mpr hge), Option.getD_none]

theorem revision_eq_zero {id : String} (h : ∀ n, 0 < n → ¬ HasRevision id n) :
    revision id = 0 := by
  unfold revision
  split
  · rfl
  · next name suffix hcut =>
    refine if_neg fun hread => ?_
    obtain ⟨hname, hnumeral⟩ := Bool.and_eq_true_iff.mp hread
    obtain ⟨n, hn, rfl⟩ := isPositiveNumeral_iff.mp hnumeral
    exact h n hn (hasRevision_iff.mpr ⟨name, isName_iff.mp hname, hcut⟩)

section Format

/-- The words of one character with a property. -/
def oneOf (P : Char → Prop) : Language Char := {cs | ∃ c, P c ∧ cs = [c]}

/-- Characters of one line, the last one of which is no hyphen. -/
def names : Language Char := (oneOf (· ≠ '\n'))∗ * oneOf fun c => c ≠ '\n' ∧ c ≠ '-'

/-- Digits that do not begin with zero. -/
def numerals : Language Char :=
  oneOf (fun c => '1' ≤ c ∧ c ≤ '9') * (oneOf fun c => '0' ≤ c ∧ c ≤ '9')∗

/-- The format of identifiers with a revision. -/
def format : Language Char := names * oneOf (· = '-') * numerals

theorem mem_star_oneOf {P : Char → Prop} {cs : List Char} :
    cs ∈ (oneOf P)∗ ↔ ∀ c ∈ cs, P c := by
  rw [Language.mem_kstar]
  constructor
  · rintro ⟨words, rfl, hwords⟩ c hc
    obtain ⟨word, hword, hc⟩ := List.mem_flatten.mp hc
    obtain ⟨d, hd, rfl⟩ := hwords word hword
    rwa [List.mem_singleton.mp hc]
  · intro hcs
    refine ⟨cs.map ([·]), by rw [← List.flatMap_def, List.flatMap_singleton'], ?_⟩
    intro word hword
    obtain ⟨c, hc, rfl⟩ := List.mem_map.mp hword
    exact ⟨c, hcs c hc, rfl⟩

theorem mem_names_iff {name : List Char} : name ∈ names ↔ IsName name := by
  rw [names, Language.mem_mul]
  constructor
  · rintro ⟨line, hline, _, ⟨c, hc, rfl⟩, rfl⟩
    have hnewline : '\n' ∉ line := fun hmem => mem_star_oneOf.mp hline '\n' hmem rfl
    exact ⟨by simp, by simp [hnewline, hc.1.symm], by simp [hc.2]⟩
  · rintro ⟨hne, hnewline, hlast⟩
    obtain rfl | ⟨line, c, rfl⟩ := List.eq_nil_or_concat' name
    · exact absurd rfl hne
    · simp only [List.mem_append, List.mem_singleton, not_or] at hnewline
      rw [List.getLast?_concat, ne_eq, Option.some.injEq] at hlast
      refine ⟨line, mem_star_oneOf.mpr ?_, [c], ⟨c, ⟨Ne.symm hnewline.2, hlast⟩, rfl⟩, rfl⟩
      rintro d hd rfl
      exact hnewline.1 hd

theorem mem_numerals_iff {ds : List Char} :
    ds ∈ numerals ↔ ∃ n, 0 < n ∧ ds = Decimal.digits n := by
  rw [← isPositiveNumeral_iff, numerals, Language.mem_mul]
  simp only [mem_star_oneOf, ← Decimal.isDigit_and_ne_zero_iff, ← Decimal.isDigit_iff]
  constructor
  · rintro ⟨_, ⟨d, hd, rfl⟩, rest, hrest, rfl⟩
    simpa [isPositiveNumeral, hd] using hrest
  · intro hnumeral
    cases ds with
    | nil => cases hnumeral
    | cons d rest =>
        simp only [isPositiveNumeral, Bool.and_eq_true, decide_eq_true_eq, List.all_cons,
          List.all_eq_true] at hnumeral
        obtain ⟨hzero, hd, hrest⟩ := hnumeral
        exact ⟨[d], ⟨d, ⟨hd, hzero⟩, rfl⟩, rest, hrest, rfl⟩

/-- The format is that of the identifiers with a positive revision of any size. -/
theorem mem_format_iff {id : String} :
    id.toList ∈ format ↔ ∃ n, 0 < n ∧ HasRevision id n := by
  simp only [format, Language.mem_mul, mem_names_iff, mem_numerals_iff, hasRevision_iff,
    Text.cutLast?_eq_some_iff, hyphen_notMem_digits, not_false_eq_true, and_true]
  constructor
  · rintro ⟨_, ⟨name, hname, _, ⟨_, rfl, rfl⟩, rfl⟩, _, ⟨n, hn, rfl⟩, hid⟩
    exact ⟨n, hn, name, hname, by simp [← hid]⟩
  · rintro ⟨n, hn, name, hname, hid⟩
    exact ⟨_, ⟨name, hname, ['-'], ⟨'-', rfl, rfl⟩, rfl⟩, _, ⟨n, hn, rfl⟩, by simp [hid]⟩

/-- An identifier of the format has the revision that its last part says, unless that is too large.
Others have none. -/
theorem revision_eq_of_format (id : String) :
    (id.toList ∈ format → revision id =
      (((Text.split '-' id.toList).getLast?.bind fun last =>
        (Decimal.readUInt64 last).toOption)).getD 0) ∧
    (id.toList ∉ format → revision id = 0) := by
  constructor
  · intro hformat
    obtain ⟨n, hn, hrevision⟩ := mem_format_iff.mp hformat
    obtain ⟨name, _, hcut⟩ := hasRevision_iff.mp hrevision
    obtain ⟨hid, hlast⟩ := Text.eq_of_cutLast? hcut
    rw [Text.getLast?_split_eq_some_iff.mpr ⟨hlast, .inr ⟨name, hid⟩⟩]
    exact revision_of_hasRevision hrevision hn
  · intro hformat
    exact revision_eq_zero fun n hn hrevision => hformat (mem_format_iff.mpr ⟨n, hn, hrevision⟩)

end Format

/-- The revision of an identifier is the positive number of 64 bits that is written behind its name.
It is zero when there is no such number: when no name or no numeral is found, and when the numeral
is that of zero or of a number that is too large. -/
theorem revision_exact (id : String) :
    (∀ n : Nat, 0 < n → n < 1 <<< 64 → ((revision id).toNat = n ↔ HasRevision id n)) ∧
    (revision id = 0 ↔ ∀ n : Nat, HasRevision id n → n = 0 ∨ 1 <<< 64 ≤ n) := by
  have hzero : (0 : UInt64).toNat = 0 := rfl
  by_cases hrevision : ∃ n, 0 < n ∧ HasRevision id n
  · obtain ⟨n, hn, h⟩ := hrevision
    have hunique {m : Nat} (hm : HasRevision id m) : m = n := hm.unique h
    obtain hlt | hge := Nat.lt_or_ge n (1 <<< 64)
    · have hread := revision_eq_of_lt h hn hlt
      constructor
      · intro m _ _
        rw [hread]
        exact ⟨fun heq => heq ▸ h, fun hm => (hunique hm).symm⟩
      · refine iff_of_false (fun hnone => ?_) fun hnone => ?_
        · rw [hnone] at hread
          omega
        · have hnone := hnone n h
          omega
    · have hread := revision_eq_zero_of_ge h hge
      rw [hread, hzero]
      refine ⟨fun m hm hlt => iff_of_false (by omega) fun h' => ?_,
        iff_of_true rfl fun m hm => .inr (by rwa [hunique hm])⟩
      rw [hunique h'] at hlt
      omega
  · have hnone {m : Nat} (hm : 0 < m) : ¬ HasRevision id m := fun h => hrevision ⟨m, hm, h⟩
    rw [revision_eq_zero fun m hm => hnone hm, hzero]
    refine ⟨fun m hm _ => iff_of_false (by omega) (hnone hm), iff_of_true rfl fun m hm => .inl ?_⟩
    by_contra hpos
    exact hnone (Nat.pos_of_ne_zero hpos) hm

/-- A revision that is found, and one that is too large by one. -/
theorem revision_exact_largest :
    0 < 18446744073709551615 ∧ 18446744073709551615 < 1 <<< 64 ∧
    (revision "cosmos-hub-18446744073709551615").toNat = 18446744073709551615 ∧
    revision "cosmos-hub-18446744073709551616" = 0 := by
  have hname : IsName "cosmos-hub".toList := by
    refine ⟨by decide, by decide, by decide⟩
  have hlargest : HasRevision "cosmos-hub-18446744073709551615" 18446744073709551615 :=
    ⟨"cosmos-hub", hname, by decide +kernel⟩
  have hlarger : HasRevision "cosmos-hub-18446744073709551616" 18446744073709551616 :=
    ⟨"cosmos-hub", hname, by decide +kernel⟩
  refine ⟨by decide, by decide, ?_, ?_⟩
  · exact ((revision_exact _).1 _ (by decide) (by decide)).mpr hlargest
  · refine (revision_exact _).2.mpr fun n hn => .inr ?_
    rw [hn.unique hlarger]
    decide

example : ∀ id ∈ ["gaia", "gaia-0", "gaia-04", "gaia-+4", "gaia--4", "-4", "gaia-4\n", "gaia-٤"],
    revision id = 0 := by
  decide +kernel

end PacketRelay.ChainId
