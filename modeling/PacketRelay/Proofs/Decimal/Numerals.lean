import PacketRelay.Decimal.Shortest

/-!
# Reading numerals back

A numeral consists of digits and is read back as its number.  In a text with two numerals apart from
each other and no other digits, the runs of digits are the two numerals.  Any run of digits is read
if its value is below the bound.
-/

namespace PacketRelay.Decimal

theorem digitValue?_digitChar {d : Nat} (hd : d < 10) : digitValue? (digitChar d) = some d := by
  have hall : ∀ d < 10, digitValue? (digitChar d) = some d := by decide
  exact hall d hd

theorem isDigit_digitChar {d : Nat} (hd : d < 10) : isDigit (digitChar d) = true := by
  simp [isDigit, digitValue?_digitChar hd]

theorem digits_of_lt {n : Nat} (hn : n < 10) : digits n = [digitChar n] := by
  rw [digits, if_pos hn]

theorem digits_of_ge {n : Nat} (hn : 10 ≤ n) :
    digits n = digits (n / 10) ++ [digitChar (n % 10)] := by
  rw [digits, if_neg (Nat.not_lt.mpr hn)]

theorem digits_ne_nil (n : Nat) : digits n ≠ [] := by
  rw [digits]
  split <;> simp

theorem length_digits_le {n k : Nat} (hn : n < Nat.pow 10 (k + 1)) :
    (digits n).length ≤ k + 1 := by
  induction k generalizing n with
  | zero =>
      rw [digits_of_lt (by simpa using hn)]
      exact Nat.le_refl 1
  | succ k ih =>
      by_cases hsmall : n < 10
      · rw [digits_of_lt hsmall, List.length_singleton]
        omega
      · have hdiv : n / 10 < Nat.pow 10 (k + 1) := by
          have hsplit : Nat.pow 10 (k + 1 + 1) = Nat.pow 10 (k + 1) * 10 := rfl
          exact Nat.div_lt_of_lt_mul (by omega)
        rw [digits_of_ge (Nat.le_of_not_lt hsmall), List.length_append, List.length_singleton]
        exact Nat.succ_le_succ (ih hdiv)

theorem isDigit_of_mem_digits {n : Nat} {c : Char} (hc : c ∈ digits n) : isDigit c = true := by
  induction n using digits.induct with
  | case1 n hn =>
      rw [digits_of_lt hn, List.mem_singleton] at hc
      rw [hc]
      exact isDigit_digitChar hn
  | case2 n hn ih =>
      rw [digits_of_ge (Nat.not_lt.mp hn), List.mem_append, List.mem_singleton] at hc
      obtain hc | rfl := hc
      · exact ih hc
      · exact isDigit_digitChar (Nat.mod_lt n (by omega))

theorem notMem_digits {c : Char} (hc : isDigit c = false) (n : Nat) : c ∉ digits n := by
  intro hmem
  rw [isDigit_of_mem_digits hmem] at hc
  cases hc

theorem readDigits_append (bound acc : Nat) (cs ds : List Char) :
    readDigits bound acc (cs ++ ds) =
      (readDigits bound acc cs).bind fun n => readDigits bound n ds := by
  induction cs generalizing acc with
  | nil => rfl
  | cons c cs ih =>
      simp only [List.cons_append, readDigits]
      cases digitValue? c with
      | none => rfl
      | some d =>
          dsimp only
          split
          · exact ih _
          · rfl

theorem readDigits_digits {bound n : Nat} (hn : n < bound) :
    readDigits bound 0 (digits n) = .ok n := by
  induction n using digits.induct with
  | case1 n hlt =>
      simp [digits_of_lt hlt, readDigits, digitValue?_digitChar hlt, hn]
  | case2 n hge ih =>
      have hdiv : n / 10 * 10 + n % 10 = n := by omega
      rw [digits_of_ge (Nat.not_lt.mp hge), readDigits_append, ih (by omega)]
      simp [Except.bind, readDigits, digitValue?_digitChar (Nat.mod_lt n (by omega : 10 > 0)),
        hdiv, hn]

theorem read_digits {bound n : Nat} (hn : n < bound) : read bound (digits n) = .ok n := by
  rw [← readDigits_digits hn]
  have hplus : '+' ∉ digits n := notMem_digits (by decide) n
  cases hds : digits n with
  | nil => exact absurd hds (digits_ne_nil n)
  | cons c cs =>
      rw [hds] at hplus
      unfold read
      split
      · simp_all
      · simp_all
      · simp_all
      · rfl

theorem readUInt64_digits (n : UInt64) : readUInt64 (digits n.toNat) = .ok n := by
  have hlt : n.toNat < 1 <<< 64 := by simpa using n.toNat_lt
  rw [readUInt64, read_digits hlt]
  simp [Except.map]

/-- The characters are all digits. -/
def IsRun (cs : List Char) : Prop := ∀ c ∈ cs, isDigit c = true

/-- None of the characters is a digit. -/
def DigitFree (cs : List Char) : Prop := ∀ c ∈ cs, isDigit c = false

instance (cs : List Char) : Decidable (DigitFree cs) :=
  decidable_of_iff (cs.all fun c => !isDigit c) (by simp [DigitFree])

theorem le_foldl_digits (acc : Nat) (ds : List Char) :
    acc ≤ ds.foldl (fun n c => n * 10 + (digitValue? c).getD 0) acc := by
  induction ds generalizing acc with
  | nil => exact Nat.le_refl acc
  | cons d ds ih =>
      have hstep := ih (acc * 10 + (digitValue? d).getD 0)
      rw [List.foldl_cons]
      omega

theorem readDigits_run {bound acc : Nat} {ds : List Char} (hds : IsRun ds) (hacc : acc < bound) :
    readDigits bound acc ds =
      if ds.foldl (fun n c => n * 10 + (digitValue? c).getD 0) acc < bound then
        .ok (ds.foldl (fun n c => n * 10 + (digitValue? c).getD 0) acc)
      else .error .tooLarge := by
  induction ds generalizing acc with
  | nil => rw [readDigits, List.foldl_nil, if_pos hacc]
  | cons d ds ih =>
      obtain ⟨hd, hrest⟩ := List.forall_mem_cons.mp hds
      obtain ⟨v, hv⟩ := Option.isSome_iff_exists.mp hd
      have hgrows := le_foldl_digits (acc * 10 + v) ds
      simp only [readDigits, List.foldl_cons, hv, Option.getD_some]
      split
      · next hlt => exact ih hrest hlt
      · next hge => rw [if_neg (by omega)]

theorem read_run {bound : Nat} {ds : List Char} (hds : IsRun ds) (hne : ds ≠ []) :
    read bound ds = readDigits bound 0 ds := by
  have hplus : '+' ∉ ds := fun hmem => absurd (hds '+' hmem) (by decide)
  cases ds with
  | nil => exact absurd rfl hne
  | cons d ds =>
      have hd : d ≠ '+' := fun heq => hplus (heq ▸ List.mem_cons_self)
      unfold read
      split <;> simp_all

theorem readUInt64_run {ds : List Char} (hds : IsRun ds) (hne : ds ≠ []) (n : UInt64) :
    (readUInt64 ds).toOption = some n ↔ valueOf ds = n.toNat := by
  have hn : n.toNat < 1 <<< 64 := by simpa using n.toNat_lt
  rw [readUInt64, read_run hds hne, readDigits_run hds (by decide), ← valueOf]
  split
  · next hlt =>
    have hsize : valueOf ds < UInt64.size := by simpa using hlt
    constructor
    · intro hsome
      rw [← Option.some.inj hsome, UInt64.toNat_ofNat_of_lt' hsize]
    · intro heq
      simp [Except.map, Except.toOption, heq]
  · next hge =>
    constructor
    · intro hsome
      cases hsome
    · intro heq
      exact absurd (heq ▸ hn) hge

theorem isRun_of_readDigits {bound acc n : Nat} {ds : List Char}
    (h : readDigits bound acc ds = .ok n) : IsRun ds := by
  induction ds generalizing acc with
  | nil => simp [IsRun]
  | cons d ds ih =>
      rw [readDigits] at h
      cases hd : digitValue? d with
      | none => simp [hd] at h
      | some v =>
          simp only [hd] at h
          split at h
          · exact List.forall_mem_cons.mpr ⟨by simp [isDigit, hd], ih h⟩
          · cases h

theorem exists_run_of_read {bound n : Nat} {cs : List Char} (h : read bound cs = .ok n) :
    ∃ ds, (cs = ds ∨ cs = '+' :: ds) ∧ ds ≠ [] ∧ IsRun ds := by
  unfold read at h
  split at h
  · cases h
  · cases h
  · next ds hds => exact ⟨ds, .inr rfl, fun hnil => hds (by rw [hnil]), isRun_of_readDigits h⟩
  · next hne _ _ => exact ⟨cs, .inl rfl, hne, isRun_of_readDigits h⟩

/-- An optional plus sign and a run of digits with this value. -/
def Denotes (cs : List Char) (n : Nat) : Prop :=
  ∃ ds, (cs = ds ∨ cs = '+' :: ds) ∧ ds ≠ [] ∧ IsRun ds ∧ valueOf ds = n

/-- The reader returns the value of the numeral, and fails on any other text. -/
theorem readUInt64_ok_iff {cs : List Char} {n : UInt64} :
    readUInt64 cs = .ok n ↔ Denotes cs n.toNat := by
  have hrun {ds : List Char} (hds : IsRun ds) (hne : ds ≠ []) :
      readUInt64 ds = .ok n ↔ valueOf ds = n.toNat := by
    rw [← readUInt64_run hds hne]
    cases readUInt64 ds <;> simp [Except.toOption]
  have hplus {ds : List Char} (hds : IsRun ds) (hne : ds ≠ []) :
      readUInt64 ('+' :: ds) = readUInt64 ds := by
    rw [readUInt64, readUInt64, read_run hds hne]
    cases ds with
    | nil => exact absurd rfl hne
    | cons d ds => rfl
  constructor
  · intro h
    have hread : ∃ m, read (1 <<< 64) cs = .ok m := by
      rw [readUInt64] at h
      cases hcs : read (1 <<< 64) cs with
      | error fault => rw [hcs] at h; cases h
      | ok m => exact ⟨m, rfl⟩
    obtain ⟨m, hm⟩ := hread
    obtain ⟨ds, hcs, hne, hds⟩ := exists_run_of_read hm
    refine ⟨ds, hcs, hne, hds, (hrun hds hne).mp ?_⟩
    obtain rfl | rfl := hcs
    · exact h
    · rwa [hplus hds hne] at h
  · rintro ⟨ds, rfl | rfl, hne, hds, hvalue⟩
    · exact (hrun hds hne).mpr hvalue
    · rw [hplus hds hne]
      exact (hrun hds hne).mpr hvalue

theorem denotes_digits (n : UInt64) : Denotes (digits n.toNat) n.toNat :=
  readUInt64_ok_iff.mp (readUInt64_digits n)

theorem isRun_digits (n : Nat) : IsRun (digits n) := fun _ => isDigit_of_mem_digits

theorem runs_go_run {ds : List Char} (hds : IsRun ds) (run cs : List Char) :
    runs.go run (ds ++ cs) = runs.go (ds.reverse ++ run) cs := by
  induction ds generalizing run with
  | nil => rfl
  | cons d ds ih =>
      obtain ⟨hd, hrest⟩ := List.forall_mem_cons.mp hds
      rw [List.cons_append, runs.go, if_pos hd, ih hrest]
      simp

theorem runs_go_digitFree {ds : List Char} (hds : DigitFree ds) (cs : List Char) :
    runs.go [] (ds ++ cs) = runs.go [] cs := by
  induction ds with
  | nil => rfl
  | cons d ds ih =>
      obtain ⟨hd, hrest⟩ := List.forall_mem_cons.mp hds
      rw [List.cons_append, runs.go, if_neg (by simp [hd])]
      exact ih hrest

theorem runs_go_break {ds : List Char} (hds : DigitFree ds) (hne : ds ≠ []) {run : List Char}
    (hrun : run ≠ []) (cs : List Char) :
    runs.go run (ds ++ cs) = run.reverse :: runs.go [] cs := by
  cases ds with
  | nil => exact absurd rfl hne
  | cons d ds =>
      obtain ⟨hd, hrest⟩ := List.forall_mem_cons.mp hds
      rw [List.cons_append, runs.go, if_neg (by simp [hd]), if_neg (by simpa using hrun),
        runs_go_digitFree hrest]

theorem runs_pair {a m b n c : List Char} (ha : DigitFree a) (hm : IsRun m) (hm' : m ≠ [])
    (hb : DigitFree b) (hb' : b ≠ []) (hn : IsRun n) (hn' : n ≠ []) (hc : DigitFree c) :
    runs (a ++ (m ++ (b ++ (n ++ c)))) = [m, n] := by
  rw [runs, runs_go_digitFree ha, runs_go_run hm, List.append_nil,
    runs_go_break hb hb' (by simpa using hm'), runs_go_run hn, List.append_nil,
    List.reverse_reverse]
  cases c with
  | nil => simp [runs.go, hn']
  | cons d c =>
      rw [← List.append_nil (d :: c), runs_go_break hc (by simp) (by simpa using hn')]
      simp [runs.go]

theorem isRun_of_mem_runs_go {run cs ds : List Char} (hrun : IsRun run) (hds : ds ∈ runs.go run cs) :
    IsRun ds ∧ ds ≠ [] := by
  have hclosed (hne : run ≠ []) : IsRun run.reverse ∧ run.reverse ≠ [] :=
    ⟨fun c hc => hrun c (List.mem_reverse.mp hc), by simpa using hne⟩
  induction cs generalizing run with
  | nil =>
      rw [runs.go] at hds
      split at hds
      · cases hds
      · next hne =>
        rw [List.mem_singleton.mp hds]
        exact hclosed (by simpa using hne)
  | cons c cs ih =>
      rw [runs.go] at hds
      have hnil : IsRun [] := by simp [IsRun]
      split at hds
      · next hc =>
        have hlonger : IsRun (c :: run) := List.forall_mem_cons.mpr ⟨hc, hrun⟩
        exact ih hlonger hds fun _ => ⟨fun d hd => hlonger d (List.mem_reverse.mp hd), by simp⟩
      · split at hds
        · exact ih hnil hds fun hne => absurd rfl hne
        · next hne =>
          obtain rfl | hds := List.mem_cons.mp hds
          · exact hclosed (by simpa using hne)
          · exact ih hnil hds fun hne => absurd rfl hne

theorem isRun_of_mem_runs {cs ds : List Char} (hds : ds ∈ runs cs) : IsRun ds ∧ ds ≠ [] :=
  isRun_of_mem_runs_go (by simp [IsRun]) hds

theorem notMem_text {c : Char} (hc : isDigit c = false) (n : Nat) : c ∉ (text n).toList := by
  rw [text, String.toList_ofList]
  exact notMem_digits hc n

theorem mem_positional {s : Scientific} {c : Char} (hc : c ∈ s.positional.toList) :
    isDigit c = true ∨ c = '.' := by
  have hzero : isDigit '0' = true := by decide
  have hpadded {width : Nat} {c : Char}
      (hc : c ∈ List.replicate width '0' ++ digits s.digits) : isDigit c = true := by
    obtain hc | hc := List.mem_append.mp hc
    · rw [List.eq_of_mem_replicate hc]
      exact hzero
    · exact isDigit_of_mem_digits hc
  unfold Scientific.positional at hc
  dsimp only at hc
  split at hc
  · simp only [String.toList_ofList, List.mem_append] at hc
    obtain hc | hc := hc
    · exact .inl (isDigit_of_mem_digits hc)
    · rw [List.eq_of_mem_replicate hc]
      exact .inl hzero
  · rw [String.toList_ofList] at hc
    split at hc
    · exact .inl (hpadded (List.mem_of_mem_take hc))
    · obtain hc | hc := List.mem_append.mp hc
      · exact .inl (hpadded (List.mem_of_mem_take hc))
      obtain rfl | hc := List.mem_cons.mp hc
      · exact .inr rfl
      · have hdropped := (List.dropWhile_sublist _).mem (List.mem_reverse.mp hc)
        exact .inl (hpadded (List.mem_of_mem_drop (List.mem_reverse.mp hdropped)))

/-- The text of a floating-point number has digits, a point, a sign and the letters of two words. -/
theorem mem_floatText {x : Float} {c : Char} (hc : c ∈ (floatText x).toList) :
    isDigit c = true ∨ c ∈ ".-infNaN".toList := by
  have hnan : "NaN".toList ⊆ ".-infNaN".toList := by decide +kernel
  have hinf : "inf".toList ⊆ ".-infNaN".toList := by decide +kernel
  have hminus : "-".toList ⊆ ".-infNaN".toList := by decide +kernel
  unfold floatText at hc
  split at hc
  · exact .inr (hnan hc)
  -- what is left of the number comes after its sign
  have hsigned {text : String} {sign : Prop} [Decidable sign]
      (hc : c ∈ ((if sign then "-" else "") ++ text).toList)
      (htext : c ∈ text.toList → isDigit c = true ∨ c ∈ ".-infNaN".toList) :
      isDigit c = true ∨ c ∈ ".-infNaN".toList := by
    rw [String.toList_append, List.mem_append] at hc
    obtain hc | hc := hc
    · split at hc
      · exact .inr (hminus hc)
      · cases hc
    · exact htext hc
  dsimp only at hc
  split at hc
  · exact hsigned hc fun hc => .inr (hinf hc)
  · refine hsigned hc fun hc => ?_
    split at hc
    · obtain rfl := List.mem_singleton.mp hc
      exact .inl (by decide)
    · obtain hdigit | rfl := mem_positional hc
      · exact .inl hdigit
      · exact .inr (by decide)

end PacketRelay.Decimal
