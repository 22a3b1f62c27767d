import PacketRelay.Proofs.Submission.Progress

/-!
# Accepted sequences of a key increase

However submissions interleave, whatever nodes answer and whenever signals fire, a key's accepted
transactions carry increasing sequences, as long as no mismatch of that key sent its cache back.
The invariant is on the cache: after an acceptance it stays above, or the submission that was
accepted still holds the lock.
-/

namespace PacketRelay.System

open Program

variable {caches : KeyId → SequenceState} {calls : Nat → Submission}
  {σ σ' τ τ' : System (Except RelayError PendingTx)} {h h' : List (Agent × Exchange)} {a b : Agent}
  {x y : Exchange} {k : KeyId} {m n : UInt64}

/-- Between two states, a submission on the key failed with a mismatch that names at most `n`. -/
def FailedBelow (calls : Nat → Submission) (k : KeyId) (n : UInt64)
    (σ τ : System (Except RelayError PendingTx)) : Prop :=
  ∃ i e c, (calls i).provider.key = k ∧ (∀ r, σ.calls i ≠ .done r) ∧
    τ.calls i = .done (.error e) ∧ e.isSequenceMismatch = true ∧
    SequenceState.expectedBy e = some c ∧ c ≤ n

theorem FailedBelow.step (hf : FailedBelow calls k n σ τ) (hstep : Step τ b y τ') :
    FailedBelow calls k n σ τ' := by
  obtain ⟨i, e, c, hkey, hrunning, hdone, hmismatch, hc, hle⟩ := hf
  have hrun : Run τ [(b, y)] τ' := (Run.nil τ).snoc hstep
  exact ⟨i, e, c, hkey, hrunning, hrun.done hdone, hmismatch, hc, hle⟩

theorem Accepts.broadcast? (hx : x.Accepts k m) : ∃ tx, x.broadcast? = some tx := by
  obtain ⟨p, tx, a, rfl, _⟩ := hx
  exact ⟨tx, rfl⟩

/-- An accepted submission of the key holds its lock at that moment. -/
theorem Run.accepts (hr : Run (submitting caches calls) h σ) (hstep : Step σ a x τ)
    (hx : x.Accepts k m) :
    σ.holders k = some a ∧ τ.holders k = some a ∧ (σ.caches k).next ≤ m := by
  obtain ⟨tx, htx⟩ := Accepts.broadcast? hx
  obtain ⟨i, rfl, hholder, st, body, r, hl, hmem⟩ := hr.broadcasts hstep htx
  obtain ⟨hkey, hle, _⟩ := hl.accepts hmem hx
  rw [hkey] at hholder hle
  refine ⟨hholder, ?_, hle⟩
  obtain hheld | ⟨_, p, st', rfl, _⟩ := hstep.holders hholder
  · exact hheld
  · cases htx

theorem Run.not_accepts_twice (hr : Run (submitting caches calls) h σ) (hstep : Step σ a x σ')
    (hx : x.Accepts k m) (hr' : Run σ' h' τ) (hstep' : Step τ a y τ') (hy : y.Accepts k n) :
    False := by
  obtain ⟨tx, htx⟩ := Accepts.broadcast? hx
  obtain ⟨tx', htx'⟩ := Accepts.broadcast? hy
  have hwhole : Run (submitting caches calls) (h ++ [(a, x)] ++ h') τ :=
    (hr.snoc hstep).append hr'
  have hjob : ¬ y.request.OfJob := by
    obtain ⟨q, tx, answer, rfl, _⟩ := hy
    exact id
  obtain ⟨i, rfl, h'', r, _, hsubmit⟩ := hwhole.exists_submitRun hstep' hjob
  have hlen := hsubmit.broadcast?_length_le
  rw [own_append, own_append, own_singleton_self] at hlen
  simp only [List.filterMap_append, List.filterMap_cons_some htx, List.filterMap_cons_some htx',
    List.length_append, List.length_cons] at hlen
  omega

/-- The cache stays above what was accepted, unless a mismatch sent it back. -/
theorem Run.cache_above (hr : Run (submitting caches calls) h σ) (hstep : Step σ a x σ')
    (hx : x.Accepts k m) (hm : m.toNat + 1 < UInt64.size) (hn : n ≤ m) (hr' : Run σ' h' τ) :
    FailedBelow calls k n σ' τ ∨ τ.holders k = some a ∨ n < (τ.caches k).next := by
  induction hr' with
  | nil => exact .inr (.inl (hr.accepts hstep hx).2.1)
  | @snoc τ τ' h' b y hrun hnext ih =>
      have hwhole : Run (submitting caches calls) (h ++ [(a, x)] ++ h') τ :=
        (hr.snoc hstep).append hrun
      have hlt (st : SequenceState) (hst : m + 1 ≤ st.next) : n < st.next := by
        rw [UInt64.lt_iff_toNat_lt]
        rw [UInt64.le_iff_toNat_le, UInt64.toNat_add] at hst
        rw [UInt64.le_iff_toNat_le] at hn
        have hone : (1 : UInt64).toNat = 1 := rfl
        rw [hone, Nat.mod_eq_of_lt hm] at hst
        omega
      obtain hfailed | hheld | habove := ih
      · exact .inl (hfailed.step hnext)
      · obtain hheld' | ⟨rfl, p, st, rfl, rfl⟩ := hnext.holders hheld
        · exact .inr (.inl hheld')
        · -- the accepted submission gives the lock back
          obtain ⟨i, rfl, rfl, body, r, hl, hown, _⟩ := hwhole.releases hnext
          have hmem : x ∈ body := by
            have hx' : x ∈ own (.call i) (h ++ [(.call i, x)] ++ h') := mem_own.mpr (by simp)
            obtain ⟨q, tx, answer, rfl, _⟩ := hx
            rw [hown] at hx'
            simpa using hx'
          obtain ⟨_, _, hst⟩ := hl.accepts hmem hx
          refine .inr (.inr ?_)
          rw [hnext.caches_release]
          exact hlt st hst
      · obtain hsame | ⟨p, st, rfl, rfl, hst⟩ := hnext.caches k
        · exact .inr (.inr (hsame ▸ habove))
        · obtain ⟨i, rfl, rfl, body, r, hl, _, hdone⟩ := hwhole.releases hnext
          obtain hle | ⟨e, c, rfl, hmismatch, hc, hreset⟩ := hl.next
          · exact .inr (.inr (hst ▸ UInt64.lt_of_lt_of_le habove hle))
          · by_cases hcn : c ≤ n
            · refine .inl ⟨i, e, c, rfl, fun r hr => ?_, hdone, hmismatch, hc, hcn⟩
              obtain ⟨_, hq⟩ | ⟨hne, _⟩ := hnext.calls i
              · rw [hrun.done hr] at hq
                cases hq
              · exact hne rfl
            · refine .inr (.inr ?_)
              rw [hst, hreset]
              exact UInt64.not_le.mp hcn

/-- Of two accepted broadcasts of a key the later one carries the greater sequence, unless between
them a submission of the key failed with a mismatch that names at most the later one's sequence.
Only submissions of a key change its cache. -/
theorem accepted_sequences_increase (caches : KeyId → SequenceState) (calls : Nat → Submission)
    (k : KeyId) :
    (∀ h σ a x σ' h' τ b y τ' m n, Run (submitting caches calls) h σ → Step σ a x σ' →
      x.Accepts k m → m.toNat + 1 < UInt64.size → Run σ' h' τ → Step τ b y τ' → y.Accepts k n →
      m < n ∨ FailedBelow calls k n σ' τ) ∧
    ∀ h σ a x σ', Run (submitting caches calls) h σ → Step σ a x σ' →
      (∀ i, a = .call i → (calls i).provider.key ≠ k) → σ'.caches k = σ.caches k := by
  constructor
  · intro h σ a x σ' h' τ b y τ' m n hr hstep hx hm hr' hstep' hy
    by_cases hmn : m < n
    · exact .inl hmn
    have hwhole : Run (submitting caches calls) (h ++ [(a, x)] ++ h') τ :=
      (hr.snoc hstep).append hr'
    obtain hfailed | hheld | habove := hr.cache_above hstep hx hm (UInt64.not_lt.mp hmn) hr'
    · exact .inr hfailed
    · -- one submission would have broadcast twice
      have hab : a = b := by
        have hholder := (hwhole.accepts hstep' hy).1
        rw [hheld] at hholder
        exact Option.some.inj hholder
      subst hab
      exact (hr.not_accepts_twice hstep hx hr' hstep' hy).elim
    · have hle := (hwhole.accepts hstep' hy).2.2
      exact absurd (UInt64.lt_of_lt_of_le habove hle) (UInt64.lt_irrefl n)
  · intro h σ a x σ' hr hstep hother
    obtain hsame | ⟨p, st, rfl, hkey, _⟩ := hstep.caches k
    · exact hsame
    · obtain ⟨i, rfl, rfl, _⟩ := hr.releases hstep
      exact absurd hkey (hother i rfl)

theorem accepted_sequences_increase_three_four :
    ∃ h σ a x σ' h' τ b y τ', Run (submitting (fun _ => ⟨3, 0⟩)
        fun _ => ⟨.twice, [], "", none, none⟩) h σ ∧ Step σ a x σ' ∧
      x.Accepts Provider.twice.key 3 ∧ Run σ' h' τ ∧ Step τ b y τ' ∧
      y.Accepts Provider.twice.key 4 ∧
      ((3 : UInt64) < 4 ∨ FailedBelow (fun _ => ⟨.twice, [], "", none, none⟩)
        Provider.twice.key 4 σ' τ) := by
  let c : Submission := ⟨.twice, [], "", none, none⟩
  obtain ⟨h, σ, x, σ', g, τ₁, hr, hstep, hx, hg, hfree, hcache, hrest⟩ :=
    exists_accepted_run (σ := submitting (fun _ => ⟨3, 0⟩) fun _ => c) (i := 0) (c := c)
      (by decide) rfl rfl rfl rfl rfl
  have hcall : τ₁.calls 1 = c.program := hrest 1 Nat.one_ne_zero
  obtain ⟨h', τ, y, τ', _, _, hr', hstep', hy, _⟩ :=
    exists_accepted_run (i := 1) (c := c) (by decide) rfl rfl hcall hfree hcache
  exact ⟨h, σ, .call 0, x, σ', g ++ h', τ, .call 1, y, τ', hr, hstep, hx, hg.append hr', hstep', hy,
    (accepted_sequences_increase _ _ _).1 _ _ _ _ _ _ _ _ _ _ _ _ hr hstep hx (by decide)
      (hg.append hr') hstep' hy⟩

end PacketRelay.System
