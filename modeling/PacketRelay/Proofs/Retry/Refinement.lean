import PacketRelay.Proofs.Retry.Course

/-!
# What a retry loop computes

Given the results that an operation would give one call after another, the policy determines how
often it is called and what the loop results in.  Without a signal a loop does just that; a signal
can only cut it short.
-/

namespace PacketRelay.RetryPolicy

open Program Timed

variable {α : Type} {p : RetryPolicy} {scope : RetryScope} {s : Signal}
  {operation : Nat → Attempt α} {o : Nat → Except RelayError α}

/-- No call follows call `n`: it succeeded, it failed in a way that is not retryable or that a step
leaves to the submission, or it was the last one allowed. -/
def EndsAt (p : RetryPolicy) (scope : RetryScope) (o : Nat → Except RelayError α) (n : Nat) : Prop :=
  (∃ a, o n = .ok a) ∨ (∃ e, o n = .error e ∧ e.isRetryable = false) ∨
    (scope = .step ∧ ∃ e, o n = .error e ∧ e.isSequenceMismatch = true) ∨ n = max 1 p.maxAttempts

/-- Call `k` is the first one that no other follows. -/
def LastCall (p : RetryPolicy) (scope : RetryScope) (o : Nat → Except RelayError α) (k : Nat) :
    Prop :=
  1 ≤ k ∧ EndsAt p scope o k ∧ ∀ j, 1 ≤ j → j < k → ¬ EndsAt p scope o j

def rendering : Except RelayError α → String
  | .ok _ => ""
  | .error e => e.message

/-- The texts of the first errors, in order. -/
def renderings (o : Nat → Except RelayError α) (count : Nat) : List String :=
  (List.range count).map fun i => rendering (o (i + 1))

/-- The loop's result if call `k` is the last one. -/
def verdict (p : RetryPolicy) (scope : RetryScope) (o : Nat → Except RelayError α) (k : Nat) :
    Except RelayError α :=
  match o k with
  | .ok a => .ok a
  | .error e =>
    if e.isRetryable = false ∨ (scope = .step ∧ e.isSequenceMismatch = true) then .error e
    else if p.lastErrorOnly then .error e
    else .error (.retriesExhausted k (renderings o k))

/-- The first calls failed with these errors. -/
def Agrees (o : Nat → Except RelayError α) (es : List RelayError) : Prop :=
  ∀ i e, es[i]? = some e → o (i + 1) = .error e

theorem isFinal_iff {e : RelayError} : scope.isFinal e = true ↔
    e.isRetryable = false ∨ (scope = .step ∧ e.isSequenceMismatch = true) := by
  simp [RetryScope.isFinal]

/-- A call that others may follow ends the loop only by succeeding or by failing for good. -/
theorem endsAt_iff {n : Nat} : EndsAt p scope o n ↔
    n = p.attempts ∨ ∀ e, o n = .error e → scope.isFinal e = true := by
  have hfailed {e : RelayError} (he : o n = .error e) (hfinal : scope.isFinal e = true) :
      ∀ e', o n = .error e' → scope.isFinal e' = true := by
    intro e' he'
    rw [he] at he'
    obtain rfl := Except.error.inj he'
    exact hfinal
  rw [EndsAt, attempts]
  constructor
  · rintro (⟨a, ha⟩ | ⟨e, he, hretry⟩ | ⟨hstep, e, he, hmismatch⟩ | hn)
    · right
      intro e he
      rw [ha] at he
      cases he
    · exact .inr (hfailed he (isFinal_iff.mpr (.inl hretry)))
    · exact .inr (hfailed he (isFinal_iff.mpr (.inr ⟨hstep, hmismatch⟩)))
    · exact .inl hn
  · rintro (hn | hfinal)
    · exact .inr (.inr (.inr hn))
    · cases ho : o n with
      | ok a => exact .inl ⟨a, rfl⟩
      | error e =>
          obtain hretry | ⟨hstep, hmismatch⟩ := isFinal_iff.mp (hfinal e ho)
          · exact .inr (.inl ⟨e, rfl, hretry⟩)
          · exact .inr (.inr (.inl ⟨hstep, e, rfl, hmismatch⟩))

/-- Before the last call every call failed in a way that does not decide the result. -/
theorem LastCall.before {j k : Nat} (hk : LastCall p scope o k) (hpos : 1 ≤ j) (hlt : j < k) :
    ∃ e, o j = .error e ∧ scope.isFinal e = false := by
  have hnot := hk.2.2 j hpos hlt
  rw [endsAt_iff, not_or, Classical.not_forall] at hnot
  obtain ⟨_, e, he⟩ := hnot
  rw [Classical.not_imp, Bool.not_eq_true] at he
  exact ⟨e, he⟩

theorem LastCall.le_attempts {k : Nat} (hk : LastCall p scope o k) : k ≤ p.attempts :=
  Nat.not_lt.mp fun hlt =>
    hk.2.2 p.attempts (Nat.le_max_left 1 _) hlt (endsAt_iff.mpr (.inl rfl))

theorem exists_lastCall_le {n : Nat} (hpos : 1 ≤ n) (hn : EndsAt p scope o n) :
    ∃ k, LastCall p scope o k ∧ k ≤ n := by
  induction n using Nat.strongRecOn with
  | _ n ih =>
      by_cases hearlier : ∃ j, 1 ≤ j ∧ j < n ∧ EndsAt p scope o j
      · obtain ⟨j, hj, hlt, hends⟩ := hearlier
        obtain ⟨k, hk, hle⟩ := ih j hlt hj hends
        exact ⟨k, hk, by omega⟩
      · exact ⟨n, ⟨hpos, hn, fun j hj hlt hends => hearlier ⟨j, hj, hlt, hends⟩⟩, Nat.le_refl n⟩

theorem exists_lastCall : ∃ k, LastCall p scope o k := by
  obtain ⟨k, hk, _⟩ :=
    @exists_lastCall_le α p scope o p.attempts (Nat.le_max_left 1 _) (endsAt_iff.mpr (.inl rfl))
  exact ⟨k, hk⟩

theorem Agrees.renderings_eq {es : List RelayError} (ho : Agrees o es) :
    renderings o es.length = es.map RelayError.message := by
  apply List.ext_getElem (by simp [renderings])
  intro i hi hi'
  have hlt : i < es.length := by simpa using hi'
  simp only [renderings, List.getElem_map, List.getElem_range]
  rw [ho i es[i] (List.getElem?_eq_getElem hlt)]
  rfl

theorem renderings_succ (k : Nat) :
    renderings o (k + 1) = renderings o k ++ [rendering (o (k + 1))] := by
  simp [renderings, List.range_succ]

theorem Settles.unique {left n : Nat} {history : List String} {x r r' : Except RelayError α}
    (hr : Settles p scope left n history x r) (hr' : Settles p scope left n history x r') :
    r = r' := by
  cases hr with
  | succeeded =>
      cases hr'
      rfl
  | failed hfinal =>
      cases hr' with
      | failed _ => rfl
      | exhausted hnot _ => rw [hfinal] at hnot; cases hnot
  | exhausted hnot _ =>
      cases hr' with
      | failed hfinal => rw [hfinal] at hnot; cases hnot
      | exhausted _ _ => rfl

theorem Settles.endsAt {left n : Nat} {history : List String} {r : Except RelayError α}
    (hsettles : Settles p scope left n history (o n) r) (hleft : left = 0 → n = p.attempts) :
    EndsAt p scope o n := by
  rw [endsAt_iff]
  generalize o n = x at hsettles
  cases hsettles with
  | succeeded => exact .inr nofun
  | failed hfinal =>
      right
      intro e he
      cases he
      exact hfinal
  | exhausted _ hzero => exact .inl (hleft hzero)

/-- The last call settles the loop with the verdict. -/
theorem LastCall.settles {k : Nat} (hk : LastCall p scope o (k + 1)) :
    Settles p scope (p.attempts - (k + 1)) (k + 1) (renderings o k) (o (k + 1))
      (p.verdict scope o (k + 1)) := by
  rw [verdict]
  cases ho : o (k + 1) with
  | ok a => exact .succeeded
  | error e =>
      by_cases hfinal : scope.isFinal e = true
      · dsimp only
        rw [if_pos (isFinal_iff.mp hfinal)]
        exact .failed hfinal
      -- a call that does not decide the result is the last one only if no other is allowed
      · have hleft : p.attempts - (k + 1) = 0 := by
          obtain hlast | hfinal' := endsAt_iff.mp hk.2.1
          · omega
          · exact absurd (hfinal' e ho) hfinal
        have hrendering : rendering (o (k + 1)) = e.message := by rw [ho]; rfl
        have hverdict : (.error (p.exhausted (k + 1) (renderings o k ++ [e.message]) e) :
            Except RelayError α) = if p.lastErrorOnly then .error e
              else .error (.retriesExhausted (k + 1) (renderings o (k + 1))) := by
          rw [renderings_succ, hrendering, exhausted]
          split <;> rfl
        dsimp only
        rw [if_neg (fun h => hfinal (isFinal_iff.mpr h)), ← hverdict]
        exact .exhausted (Bool.not_eq_true _ ▸ hfinal) hleft

theorem LastCall.length_lt {k : Nat} {es : List RelayError} (hk : LastCall p scope o k)
    (ho : Agrees o es) (hes : ∀ e ∈ es, scope.isFinal e = false)
    (hleft : es.length ≤ p.attempts - 1) : es.length + 1 ≤ k := by
  apply Nat.not_lt.mp
  intro hlt
  have hfirst : 1 ≤ k := hk.1
  have hget : es[k - 1]? = some es[k - 1] := List.getElem?_eq_getElem (by omega)
  have herror := ho _ _ hget
  rw [Nat.sub_add_cancel hfirst] at herror
  obtain hlast | hfinal := endsAt_iff.mp hk.2.1
  · omega
  · have hnot := hes _ (List.getElem_mem (by omega : k - 1 < es.length))
    rw [hfinal _ herror] at hnot
    cases hnot

/-- A call that settles the loop is the last one, and the loop results in the verdict. -/
theorem LastCall.eq_of_settles {k : Nat} {es : List RelayError} {r : Except RelayError α}
    (hk : LastCall p scope o k) (ho : Agrees o es) (hes : ∀ e ∈ es, scope.isFinal e = false)
    (hleft : es.length ≤ p.attempts - 1)
    (hsettles : Settles p scope (p.attempts - 1 - es.length) (es.length + 1)
      (es.map RelayError.message) (o (es.length + 1)) r) :
    es.length + 1 = k ∧ r = p.verdict scope o k := by
  have hle := hk.length_lt ho hes hleft
  have hends : EndsAt p scope o (es.length + 1) := by
    apply hsettles.endsAt
    intro hzero
    have hpos : 1 ≤ p.attempts := Nat.le_max_left 1 _
    omega
  have heq : es.length + 1 = k :=
    Nat.le_antisymm hle (Nat.not_lt.mp fun hlt => hk.2.2 _ (Nat.succ_pos _) hlt hends)
  subst heq
  rw [← ho.renderings_eq, Nat.sub_sub, Nat.add_comm 1] at hsettles
  exact ⟨rfl, hsettles.unique hk.settles⟩

theorem Cancelled.exists_stopped {n clock : Nat} {h : List Timed}
    (hc : Cancelled p scope s operation n clock h) : ∃ x ∈ h, ¬ x.exchange.Spared s := by
  cases hc with
  | call hdropped =>
      obtain ⟨x, hx, hstopped⟩ := hdropped.exists_stopped
      exact ⟨x, List.mem_cons_of_mem _ hx, hstopped⟩
  | pause _ hdropped =>
      obtain ⟨x, hx, hstopped⟩ := hdropped.exists_stopped
      exact ⟨x, by simp [hx], hstopped⟩

/-- A retry loop does what its policy says.  However it runs, its first calls fail one after
another, each a pause after the one before, and then comes the last call, or the loop is cancelled at
a call that the policy allows.  And whatever results the operation can give, there is a run of the
loop in which it gives them. -/
theorem run_follows_policy :
    (∀ start h r, (p.run scope s operation).run.YieldsFrom start h r →
      ∃ es h₁ h₂ clock, h = h₁ ++ h₂ ∧
        Failing p scope operation 1 start es h₁ (es.length + 1) clock ∧
        ((∃ x h₃, h₂ = opening (es.length + 1) ++ h₃ ∧
            (operation (es.length + 1)).run.YieldsFrom clock h₃ x ∧
            ∀ (o : Nat → Except RelayError α) (k : Nat), Agrees o es → o (es.length + 1) = x →
              LastCall p scope o k → es.length + 1 = k ∧ r = p.verdict scope o k) ∨
          Cancelled p scope s operation (es.length + 1) clock h₂ ∧ r = .error .cancelled ∧
            (∃ x ∈ h, ¬ x.exchange.Spared s) ∧
            ∀ (o : Nat → Except RelayError α) (k : Nat), Agrees o es → LastCall p scope o k →
              es.length + 1 ≤ k)) ∧
    ∀ o : Nat → Except RelayError α, (∀ n clock, ∃ h, (operation n).run.YieldsSpared s clock h (o n)) →
      ∃ k, LastCall p scope o k ∧ ∀ start, ∃ es h₁ h₂ clock, es.length + 1 = k ∧ Agrees o es ∧
        Failing p scope operation 1 start es h₁ k clock ∧
        (operation k).run.YieldsSpared s clock h₂ (o k) ∧
        (p.run scope s operation).run.YieldsSpared s start (h₁ ++ (opening k ++ h₂))
          (p.verdict scope o k) := by
  have hloop : (p.run scope s operation).run =
      p.attemptsFrom scope s operation (p.attempts - 1) 1 [] := rfl
  rw [hloop]
  constructor
  · intro start h r hy
    obtain ⟨es, h₁, h₂, m, clock, rfl, hfailing, hleft, hes, hend⟩ := yieldsFrom_attemptsFrom hy
    obtain rfl : m = es.length + 1 := by rw [hfailing.eq_add, Nat.add_comm]
    refine ⟨es, h₁, h₂, clock, rfl, hfailing, ?_⟩
    obtain ⟨x, h₃, rfl, hx, hsettles⟩ | ⟨hcancelled, rfl⟩ := hend
    · refine .inl ⟨x, h₃, rfl, hx, ?_⟩
      intro o k ho hox hk
      subst hox
      exact hk.eq_of_settles ho hes hleft hsettles
    · obtain ⟨x, hx, hstopped⟩ := hcancelled.exists_stopped
      exact .inr ⟨hcancelled, rfl, ⟨x, List.mem_append_right h₁ hx, hstopped⟩,
        fun o k ho hk => hk.length_lt ho hes hleft⟩
  · intro o hop
    obtain ⟨k, hk⟩ := @exists_lastCall α p scope o
    refine ⟨k, hk, ?_⟩
    intro start
    obtain ⟨count, rfl⟩ := Nat.exists_eq_add_one.mpr hk.1
    have hfails : ∀ i < count, ∃ e, o (1 + i) = .error e := by
      intro i hi
      obtain ⟨e, he, _⟩ := hk.before (Nat.le_add_right 1 i) (by omega)
      exact ⟨e, he⟩
    obtain ⟨es, h₁, clock, hfailing, rfl, hagrees, hh₁⟩ := exists_failing hop 1 start hfails
    obtain ⟨h₂, hx⟩ := hop (es.length + 1) clock
    have ho : Agrees o es := by
      intro i e he
      rw [Nat.add_comm, hagrees i e he]
    rw [Nat.add_comm 1] at hfailing
    refine ⟨es, h₁, h₂, clock, rfl, ho, hfailing, hx, ?_⟩
    have hes : ∀ e ∈ es, scope.isFinal e = false := by
      intro e he
      obtain ⟨i, hi, rfl⟩ := List.getElem_of_mem he
      obtain ⟨e', he', hfinal⟩ := hk.before (Nat.le_add_left 1 i) (by omega)
      rw [ho i _ (List.getElem?_eq_getElem hi)] at he'
      cases he'
      exact hfinal
    -- the run is put together from its end: the last call settles it, the failures come before
    have hlast := yieldsSpared_attemptsFrom_of_settles hx hk.settles
    rw [ho.renderings_eq] at hlast
    have hcalls : p.attempts - (es.length + 1) + es.length = p.attempts - 1 := by
      have hle := hk.le_attempts
      omega
    rw [← hcalls]
    exact hfailing.yieldsSpared hh₁ hes hlast

/-- A policy of three calls that reports all errors. -/
def thrice : RetryPolicy := ⟨3, .ofMillis 10, false⟩

/-- The node is not reached at first, and then the sequence does not match. -/
def mismatched : Nat → Except RelayError Unit
  | 1 => .error (.rpc "unreachable")
  | _ => .error (.rejected .wrongSequence "")

theorem lastCall_mismatched {k : Nat} (hk : LastCall thrice .step mismatched k) : k = 2 := by
  have hfirst : ¬ EndsAt thrice .step mismatched 1 := by
    intro hends
    obtain hlast | hfinal := endsAt_iff.mp hends
    · cases hlast
    · exact absurd (hfinal _ rfl) (by decide +kernel)
  have hsecond : EndsAt thrice .step mismatched 2 :=
    .inr (.inr (.inl ⟨rfl, _, rfl, by decide +kernel⟩))
  have hone : k ≠ 1 := fun h => hfirst (h ▸ hk.2.1)
  have htwo : ¬ 2 < k := fun hlt => hk.2.2 2 (by decide) hlt hsecond
  have hpos := hk.1
  omega

/-- A step meets a sequence mismatch in its second call, which begins ten milliseconds after the first
one failed.  The loop ends with the mismatch, although a third call was allowed and an error had been
collected. -/
theorem run_follows_policy_mismatched : ∃ h₁ h₂,
    Failing thrice .step (fun n => Attempt.ofExcept (mismatched n)) 1 0 [.rpc "unreachable"] h₁ 2 10 ∧
    (thrice.run .step none fun n => Attempt.ofExcept (mismatched n)).run.YieldsSpared none 0
      (h₁ ++ (opening 2 ++ h₂)) (.error (.rejected .wrongSequence "")) := by
  have hop (n clock : Nat) : ∃ h, (Attempt.ofExcept (mismatched n)).run.YieldsSpared none clock h
      (mismatched n) := ⟨[], yieldsSpared_done_iff.mpr ⟨rfl, rfl⟩⟩
  obtain ⟨k, hk, hruns⟩ := (@run_follows_policy Unit thrice .step none
    fun n => Attempt.ofExcept (mismatched n)).2 mismatched hop
  obtain rfl := lastCall_mismatched hk
  obtain ⟨es, h₁, h₂, clock, hlength, _, hfailing, _, hrun⟩ := hruns 0
  cases hfailing with
  | @call _ _ _ _ e es h h' hx hrest =>
      obtain ⟨rfl, he⟩ := yieldsFrom_done_iff.mp hx
      obtain rfl := Except.error.inj he
      obtain rfl : es = [] := List.eq_nil_of_length_eq_zero (by simpa using hlength)
      have hfailing := Failing.call hx hrest
      cases hrest
      exact ⟨_, h₂, hfailing, hrun⟩

end PacketRelay.RetryPolicy
