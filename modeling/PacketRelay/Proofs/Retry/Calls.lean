import PacketRelay.Proofs.Retry.Attempts

/-!
# The calls of a retry loop

A history of a loop shows the calls that it made, each after the calls before it.  The result of a
call decides what follows it in the history: nothing, if it settles the loop, and else a pause, in
which the loop is cancelled or after which it makes the next call.
-/

namespace PacketRelay.RetryPolicy

open Program

variable {α : Type} {p : RetryPolicy} {scope : RetryScope} {s : Signal}
  {operation : Nat → Attempt α} {h before g t : List Exchange} {x r : Except RelayError α}
  {left n : Nat} {history : List String} {e : RelayError}

/-- What is exchanged between call `n`, which failed, and the next one. -/
def interlude (p : RetryPolicy) (scope : RetryScope) (n : Nat) (e : RelayError) : List Exchange :=
  announcement scope n e ++ [.answered .rest (), .answered (.pause p.delay.millis) ()]

/-- What a loop does with the result of call `n`, after which `left` more are allowed. -/
def heed (p : RetryPolicy) (scope : RetryScope) (s : Signal) (operation : Nat → Attempt α)
    (left n : Nat) (history : List String) : Except RelayError α → Program (Except RelayError α)
  | .ok a => done (.ok a)
  | .error e =>
    if scope.isFinal e then done (.error e) else p.proceed scope s operation n history e left

/-- The calls that a history of a loop shows: call `n` came after `before`, exchanged `g` with the
result `x`, and was followed by `t`. -/
inductive Call (p : RetryPolicy) (scope : RetryScope) (s : Signal) (operation : Nat → Attempt α)
    (h : List Exchange) : (before : List Exchange) → (n : Nat) → (g : List Exchange) →
      (x : Except RelayError α) → (t : List Exchange) → Prop where
  | first {g t : List Exchange} {x : Except RelayError α} :
    h = .answered (.attempting 1) () :: (g ++ t) →
      (Attempt.guard s (operation 1)).run.Yields g x →
      Call p scope s operation h [.answered (.attempting 1) ()] 1 g x t
  | next {before g g' t : List Exchange} {n : Nat} {e : RelayError} {x : Except RelayError α} :
    Call p scope s operation h before n g (.error e)
        (p.interlude scope n e ++ .answered (.attempting (n + 1)) () :: (g' ++ t)) →
      (Attempt.guard s (operation (n + 1))).run.Yields g' x →
      Call p scope s operation h
        (before ++ (g ++ (p.interlude scope n e ++ [.answered (.attempting (n + 1)) ()]))) (n + 1)
        g' x t

theorem Call.eq_append (hc : Call p scope s operation h before n g x t) :
    h = before ++ (g ++ t) := by
  induction hc with
  | first hh _ => exact hh
  | next _ _ ih => simpa using ih

theorem Call.yields (hc : Call p scope s operation h before n g x t) :
    (Attempt.guard s (operation n)).run.Yields g x := by
  cases hc with
  | first _ hg => exact hg
  | next _ hg => exact hg

theorem attemptsFrom_eq_heed (left n : Nat) (history : List String) :
    p.attemptsFrom scope s operation left n history = (request (.attempting n)).bind fun _ =>
      (Attempt.guard s (operation n)).run.bind (p.heed scope s operation left n history) := by
  rw [attemptsFrom_eq]
  refine congrArg (Program.bind · _) (funext fun _ => congrArg (Program.bind · _) ?_)
  funext x
  cases x <;> rfl

/-- What follows the first call of a loop is decided by its result. -/
theorem yields_heed_of_call (hg : (Attempt.guard s (operation n)).run.Yields g x)
    (hy : (p.attemptsFrom scope s operation left n history).Yields
      (.answered (.attempting n) () :: (g ++ t)) r) :
    (p.heed scope s operation left n history x).Yields t r := by
  rw [attemptsFrom_eq_heed] at hy
  have hask : (request (.attempting n)).Yields [.answered (.attempting n) ()] () :=
    yields_request_iff.mpr rfl
  exact hg.of_bind (hask.of_bind hy)

theorem yields_announce_self (n : Nat) (e : RelayError) :
    (scope.announce n e).Yields (announcement scope n e) () := by
  unfold RetryScope.announce announcement
  split
  · exact yields_request_iff.mpr rfl
  · exact .refl _

theorem yields_pause (p : RetryPolicy) (s : Signal) :
    (Attempt.guard s (Attempt.request (.pause p.delay.millis))).run.Yields
      [.answered .rest (), .answered (.pause p.delay.millis) ()] (.ok ()) :=
  Attempt.yields_guard_request s (.pause p.delay.millis) ()

/-- After a pause that was not cancelled the loop makes its next call. -/
theorem yields_attemptsFrom_of_interlude
    (hy : (p.proceed scope s operation n history e (left + 1)).Yields
      (p.interlude scope n e ++ t) r) :
    (p.attemptsFrom scope s operation left (n + 1) (history ++ [e.message])).Yields t r := by
  rw [interlude, List.append_assoc] at hy
  have hrest := (yields_announce_self n e).of_bind hy
  rw [ExceptT.run_bind, bind_eq] at hrest
  exact (yields_pause p s).of_bind hrest

/-- A call is within the policy, and what follows it is decided by its result. -/
theorem Call.yields_heed (hc : Call p scope s operation h before n g x t)
    (hy : (p.run scope s operation).run.Yields h r) : 1 ≤ n ∧ n ≤ p.attempts ∧
      ∃ history, (p.heed scope s operation (p.attempts - n) n history x).Yields t r := by
  induction hc with
  | first hh hg =>
      subst hh
      exact ⟨Nat.le_refl 1, Nat.le_max_left 1 _, [], yields_heed_of_call hg hy⟩
  | @next before g g' t n e x _ hg' ih =>
      obtain ⟨hpos, _, history, hrest⟩ := ih
      -- something follows the call, so it did not settle the loop
      have hmore : p.interlude scope n e ++ .answered (.attempting (n + 1)) () :: (g' ++ t) ≠ [] :=
        List.append_ne_nil_of_right_ne_nil _ (List.cons_ne_nil _ _)
      simp only [heed] at hrest
      split at hrest
      · exact absurd (yields_done_iff.mp hrest).1 hmore
      cases hleft : p.attempts - n with
      | zero =>
          rw [hleft] at hrest
          exact absurd (yields_done_iff.mp hrest).1 hmore
      | succ left =>
          rw [hleft] at hrest
          obtain rfl : left = p.attempts - (n + 1) := by omega
          exact ⟨Nat.succ_pos n, by omega, history ++ [e.message],
            yields_heed_of_call hg' (yields_attemptsFrom_of_interlude hrest)⟩

/-- A call that failed for good is the last one. -/
theorem Call.ends_of_isFinal (hc : Call p scope s operation h before n g (.error e) t)
    (hy : (p.run scope s operation).run.Yields h r) (he : scope.isFinal e = true) :
    t = [] ∧ r = .error e := by
  obtain ⟨_, _, history, hrest⟩ := hc.yields_heed hy
  rw [heed, if_pos he] at hrest
  exact yields_done_iff.mp hrest

theorem Call.ends_of_attempts_le (hc : Call p scope s operation h before n g (.error e) t)
    (hy : (p.run scope s operation).run.Yields h r) (he : scope.isFinal e = false)
    (hn : p.attempts ≤ n) : t = [] ∧ ∃ errors, r = .error (p.exhausted n errors e) := by
  obtain ⟨_, _, history, hrest⟩ := hc.yields_heed hy
  rw [heed, he, Nat.sub_eq_zero_of_le hn] at hrest
  obtain ⟨rfl, rfl⟩ := yields_done_iff.mp hrest
  exact ⟨rfl, _, rfl⟩

/-- A loop begins with a call, whose result decides what follows it. -/
theorem exists_call_of_yields
    (hy : (p.attemptsFrom scope s operation left n history).Yields h r) :
    ∃ g x t, h = .answered (.attempting n) () :: (g ++ t) ∧
      (Attempt.guard s (operation n)).run.Yields g x ∧
      (p.heed scope s operation left n history x).Yields t r := by
  rw [attemptsFrom_eq_heed] at hy
  obtain ⟨_, ⟨⟩, _, rfl, hask, hbody⟩ := yields_bind_iff.mp hy
  obtain rfl := yields_request_iff.mp hask
  obtain ⟨g, x, t, rfl, hg, hrest⟩ := yields_bind_iff.mp hbody
  exact ⟨g, x, t, rfl, hg, hrest⟩

/-- After a failure comes a pause, in which a signal cancels the loop or after which it makes its next
call. -/
theorem Call.next_or_cancelled (hc : Call p scope s operation h before n g (.error e) t)
    (hrest : (p.proceed scope s operation n history e (left + 1)).Yields t r) :
    (∃ g' x t', Call p scope s operation h
        (before ++ (g ++ (p.interlude scope n e ++ [.answered (.attempting (n + 1)) ()]))) (n + 1)
        g' x t' ∧
      (p.heed scope s operation left (n + 1) (history ++ [e.message]) x).Yields t' r) ∨
      s ≠ none ∧ r = .error .cancelled := by
  obtain ⟨_, ⟨⟩, h₁, rfl, hannounce, htail⟩ := yields_bind_iff.mp hrest
  obtain rfl := yields_announce hannounce
  obtain ⟨e', hpause, rfl⟩ | ⟨h₂, ⟨⟩, h₃, rfl, hpause, hnext⟩ := Attempt.yields_bind_iff.mp htail
  · obtain ⟨rfl, k, rfl, _⟩ := (Attempt.yields_guard hpause).request_error
    exact .inr ⟨Option.some_ne_none k, rfl⟩
  · obtain rfl := (Attempt.yields_guard hpause).request_ok
    obtain ⟨g', x, t', rfl, hg', hheed⟩ := exists_call_of_yields hnext
    refine .inl ⟨g', x, t', .next ?_ hg', hheed⟩
    simpa [interlude] using hc

/-- A failed call that does not settle the loop is followed by another one, unless a signal cancels
the loop in the pause. -/
theorem Call.followed (hc : Call p scope s operation h before n g (.error e) t)
    (hy : (p.run scope s operation).run.Yields h r) (he : scope.isFinal e = false)
    (hn : n < p.attempts) :
    (∃ g' x t', Call p scope s operation h
        (before ++ (g ++ (p.interlude scope n e ++ [.answered (.attempting (n + 1)) ()]))) (n + 1)
        g' x t') ∨
      s ≠ none ∧ r = .error .cancelled := by
  obtain ⟨_, _, history, hrest⟩ := hc.yields_heed hy
  obtain ⟨left, hleft⟩ : ∃ left, p.attempts - n = left + 1 := ⟨p.attempts - n - 1, by omega⟩
  rw [heed, he, hleft] at hrest
  obtain ⟨g', x, t', hnext, _⟩ | hcancelled := hc.next_or_cancelled hrest
  · exact .inl ⟨g', x, t', hnext⟩
  · exact .inr hcancelled

/-- A loop can do after a call what it does with its result. -/
theorem yields_attemptsFrom_of_heed (hg : (Attempt.guard s (operation n)).run.Yields g x)
    (ht : (p.heed scope s operation left n history x).Yields t r) :
    (p.attemptsFrom scope s operation left n history).Yields
      (.answered (.attempting n) () :: (g ++ t)) r := by
  rw [attemptsFrom_eq_heed]
  exact reaches_request_bind (yields_bind_iff.mpr ⟨g, x, t, rfl, hg, ht⟩)

theorem yields_attemptsFrom_of_ok {a : α}
    (hg : (Attempt.guard s (operation n)).run.Yields g (.ok a)) :
    (p.attemptsFrom scope s operation left n history).Yields (.answered (.attempting n) () :: g)
      (.ok a) := by
  rw [← List.append_nil g]
  exact yields_attemptsFrom_of_heed hg (.refl _)

theorem yields_attemptsFrom_of_isFinal
    (hg : (Attempt.guard s (operation n)).run.Yields g (.error e)) (he : scope.isFinal e = true) :
    (p.attemptsFrom scope s operation left n history).Yields (.answered (.attempting n) () :: g)
      (.error e) := by
  rw [← List.append_nil g]
  refine yields_attemptsFrom_of_heed hg ?_
  rw [heed, if_pos he]
  exact .refl _

theorem yields_attemptsFrom_of_exhausted
    (hg : (Attempt.guard s (operation n)).run.Yields g (.error e)) (he : scope.isFinal e = false) :
    (p.attemptsFrom scope s operation 0 n history).Yields (.answered (.attempting n) () :: g)
      (.error (p.exhausted n (history ++ [e.message]) e)) := by
  rw [← List.append_nil g]
  refine yields_attemptsFrom_of_heed hg ?_
  rw [heed, he]
  exact .refl _

/-- A call can fail if that does not decide the result and another call may follow. -/
theorem yields_attemptsFrom_of_error
    (hg : (Attempt.guard s (operation n)).run.Yields g (.error e)) (he : scope.isFinal e = false)
    (hrest : (p.attemptsFrom scope s operation left (n + 1) (history ++ [e.message])).Yields t r) :
    (p.attemptsFrom scope s operation (left + 1) n history).Yields
      (.answered (.attempting n) () :: (g ++ (p.interlude scope n e ++ t))) r := by
  refine yields_attemptsFrom_of_heed hg ?_
  rw [heed, he, interlude, List.append_assoc]
  refine yields_bind_iff.mpr ⟨_, (), _, rfl, yields_announce_self n e, ?_⟩
  exact Attempt.yields_bind_iff.mpr (.inr ⟨_, (), t, rfl, yields_pause p s, hrest⟩)

/-- Whatever the first call can do, a loop can begin with. -/
theorem exists_yields_run (hg : (Attempt.guard s (operation 1)).run.Yields g x) :
    ∃ t r, (p.run scope s operation).run.Yields (.answered (.attempting 1) () :: (g ++ t)) r := by
  obtain ⟨t, r, hrest⟩ := (p.heed scope s operation (p.attempts - 1) 1 [] x).exists_yields
  exact ⟨t, r, yields_attemptsFrom_of_heed hg hrest⟩

end PacketRelay.RetryPolicy
