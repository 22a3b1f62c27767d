import PacketRelay.Proofs.Program.Asks
import PacketRelay.Retry.Loop

/-!
# Histories of retry loops

A loop's history is a sequence of rounds.  Each round but the last one failed with an error that is
not final and was followed by a pause; the last one decides the result.
-/

namespace PacketRelay

open Program

/-- Tells of the next attempt, where the loop wraps a submission. -/
def RetryScope.announce (scope : RetryScope) (n : Nat) (e : RelayError) : Program Unit :=
  if scope = .submission then request (.retrying n e) else done ()

/-- The requests of a retry loop besides those of its operation. -/
def RetryScope.LoopRequest (scope : RetryScope) : Request → Prop
  | .rest | .attempting _ | .pause _ => True
  | .retrying .. => scope = .submission
  | _ => False

namespace RetryPolicy

variable {α : Type} {p : RetryPolicy} {scope : RetryScope} {s : Signal}
  {operation : Nat → Attempt α}

/-- What follows a failed attempt that does not decide the result. -/
def proceed (p : RetryPolicy) (scope : RetryScope) (s : Signal) (operation : Nat → Attempt α)
    (n : Nat) (history : List String) (e : RelayError) :
    (left : Nat) → Program (Except RelayError α)
  | 0 => done (.error (p.exhausted n (history ++ [e.message]) e))
  | left + 1 =>
    (scope.announce n e).bind fun _ =>
      (Attempt.guard s (Attempt.request (.pause p.delay.millis)) >>= fun _ => ExceptT.mk
        (p.attemptsFrom scope s operation left (n + 1) (history ++ [e.message]))).run

theorem attemptsFrom_eq (left n : Nat) (history : List String) :
    p.attemptsFrom scope s operation left n history =
      (request (.attempting n)).bind fun _ => (Attempt.guard s (operation n)).run.bind fun
        | .ok a => done (.ok a)
        | .error e =>
          if scope.isFinal e then done (.error e)
          else p.proceed scope s operation n history e left := by
  rw [attemptsFrom.eq_def]
  refine congrArg (Program.bind · _) (funext fun _ => congrArg (Program.bind · _) ?_)
  funext r
  cases r with
  | ok a => rfl
  | error e =>
      dsimp only
      split
      · rfl
      · cases left with
        | zero => rfl
        | succ left =>
            rw [proceed, ExceptT.run_bind, RetryScope.announce]
            dsimp only
            split
            · refine congrArg (Program.bind · _) (funext fun _ => congrArg (Program.bind · _) ?_)
              funext x
              cases x <;> rfl
            · refine congrArg (Program.bind · _) ?_
              funext x
              cases x <;> rfl

/-- The exchange that announces attempt `n + 1`. -/
def announcement (scope : RetryScope) (n : Nat) (e : RelayError) : List Exchange :=
  if scope = .submission then [.answered (.retrying n e) ()] else []

/-- The histories of a loop at attempt `n`, after which `left` more are allowed. -/
inductive Rounds (p : RetryPolicy) (scope : RetryScope) (s : Signal) (operation : Nat → Attempt α) :
    (left n : Nat) → (history : List String) → List Exchange → Except RelayError α → Prop where
  | succeeded {left n : Nat} {history : List String} {h : List Exchange} {a : α} :
    Attempt.Guarded s (operation n) h (.ok a) →
      Rounds p scope s operation left n history (.answered (.attempting n) () :: h) (.ok a)
  | failed {left n : Nat} {history : List String} {h : List Exchange} {e : RelayError} :
    Attempt.Guarded s (operation n) h (.error e) → scope.isFinal e = true →
      Rounds p scope s operation left n history (.answered (.attempting n) () :: h) (.error e)
  | exhausted {n : Nat} {history : List String} {h : List Exchange} {e : RelayError} :
    Attempt.Guarded s (operation n) h (.error e) → scope.isFinal e = false →
      Rounds p scope s operation 0 n history (.answered (.attempting n) () :: h)
        (.error (p.exhausted n (history ++ [e.message]) e))
  | interrupted {left n : Nat} {history : List String} {h hp : List Exchange} {e : RelayError} :
    Attempt.Guarded s (operation n) h (.error e) → scope.isFinal e = false →
      Attempt.Guarded s (Attempt.request (.pause p.delay.millis)) hp (.error .cancelled) →
      Rounds p scope s operation (left + 1) n history
        (.answered (.attempting n) () :: (h ++ (announcement scope n e ++ hp)))
        (.error .cancelled)
  | again {left n : Nat} {history : List String} {h h' : List Exchange} {e : RelayError}
      {r : Except RelayError α} :
    Attempt.Guarded s (operation n) h (.error e) → scope.isFinal e = false →
      Rounds p scope s operation left (n + 1) (history ++ [e.message]) h' r →
      Rounds p scope s operation (left + 1) n history
        (.answered (.attempting n) () :: (h ++ (announcement scope n e ++
          (.answered .rest () :: .answered (.pause p.delay.millis) () :: h')))) r

theorem yields_announce {n : Nat} {e : RelayError} {h : List Exchange} {a : Unit}
    (hy : (scope.announce n e).Yields h a) : h = announcement scope n e := by
  unfold RetryScope.announce at hy
  unfold announcement
  split at hy
  · next hsub => rw [if_pos hsub, yields_request_iff.mp hy]
  · next hsub => rw [if_neg hsub, (yields_done_iff.mp hy).1]

theorem yields_attemptsFrom {left n : Nat} {history : List String} {h : List Exchange}
    {r : Except RelayError α}
    (hy : (p.attemptsFrom scope s operation left n history).Yields h r) :
    Rounds p scope s operation left n history h r := by
  rw [attemptsFrom_eq] at hy
  obtain ⟨h₀, ⟨⟩, h₁, rfl, hask, hbody⟩ := yields_bind_iff.mp hy
  obtain rfl := yields_request_iff.mp hask
  obtain ⟨h₁, x, h₂, rfl, hguard, hrest⟩ := yields_bind_iff.mp hbody
  have hg := Attempt.yields_guard hguard
  cases x with
  | ok a =>
      obtain ⟨rfl, rfl⟩ := yields_done_iff.mp hrest
      rw [List.append_nil]
      exact .succeeded hg
  | error e =>
      dsimp only at hrest
      split at hrest
      · next hfinal =>
        obtain ⟨rfl, rfl⟩ := yields_done_iff.mp hrest
        rw [List.append_nil]
        exact .failed hg hfinal
      · next hfinal =>
        have hfinal : scope.isFinal e = false := by simpa using hfinal
        cases left with
        | zero =>
            obtain ⟨rfl, rfl⟩ := yields_done_iff.mp hrest
            rw [List.append_nil]
            exact .exhausted hg hfinal
        | succ left =>
            obtain ⟨h₂, ⟨⟩, h₃, rfl, hann, htail⟩ := yields_bind_iff.mp hrest
            obtain rfl := yields_announce hann
            obtain ⟨e', hpause, rfl⟩ | ⟨h₃, ⟨⟩, h₄, rfl, hpause, hnext⟩ :=
              Attempt.yields_bind_iff.mp htail
            · have hp := Attempt.yields_guard hpause
              obtain ⟨rfl, -⟩ := hp.request_error
              exact .interrupted hg hfinal hp
            · obtain rfl := (Attempt.yields_guard hpause).request_ok
              exact .again hg hfinal (yields_attemptsFrom hnext)

/-- A loop can begin with whatever its operation can begin with. -/
theorem exists_reaches_run {h : List Exchange} {q : Program (Except RelayError α)}
    (hop : (operation 1).run.Reaches h q) (hh : ∀ x ∈ h, x.IsAnswer) :
    ∃ q', (p.run scope s operation).run.Reaches
      (.answered (.attempting 1) () :: .answered .rest () :: h) q' := by
  have hloop : (p.run scope s operation).run =
      p.attemptsFrom scope s operation (p.attempts - 1) 1 [] := rfl
  rw [hloop, attemptsFrom_eq]
  exact ⟨_, reaches_request_bind ((Attempt.reaches_guard hop hh).bind _)⟩

/-- A loop succeeds with what its last attempt yields. -/
theorem Rounds.exists_yields {left n : Nat} {history : List String} {h : List Exchange} {a : α}
    (hr : Rounds p scope s operation left n history h (.ok a)) :
    ∃ k h₁ h₂, h = h₁ ++ h₂ ∧ (operation k).run.Yields h₂ (.ok a) := by
  generalize hx : Except.ok a = x at hr
  induction hr with
  | @succeeded left n history h b hg =>
      cases hx
      cases hg with
      | @finished h' _ hop => exact ⟨n, [_, _], h', rfl, hop⟩
  | failed _ _ => cases hx
  | exhausted _ _ => cases hx
  | interrupted _ _ _ => cases hx
  | @again left n history h h' e r _ _ _ ih =>
      obtain ⟨k, h₁, h₂, rfl, hop⟩ := ih hx
      exact ⟨k, .answered (.attempting n) () :: (h ++ (announcement scope n e ++
        (.answered .rest () :: .answered (.pause p.delay.millis) () :: h₁))), h₂, by simp, hx ▸ hop⟩

theorem yields_step_ok {x : Attempt α} {h : List Exchange} {a : α}
    (hy : (p.step s x).run.Yields h (.ok a)) : ∃ h₁ h₂, h = h₁ ++ h₂ ∧ x.run.Yields h₂ (.ok a) := by
  obtain ⟨_, h₁, h₂, rfl, hop⟩ := (yields_attemptsFrom hy).exists_yields
  exact ⟨h₁, h₂, rfl, hop⟩

/-- If every failure under some condition on exchanges is final, there is one attempt. -/
theorem Rounds.once {O : Exchange → Prop} (hO : ∀ x, O x → x.IsAnswer) {left n : Nat}
    {history : List String} {h : List Exchange} {r : Except RelayError α}
    (hr : Rounds p scope s operation left n history h r) (hh : ∀ x ∈ h, O x)
    (hfinal : ∀ h' e, (∀ x ∈ h', O x) → (operation n).run.Yields h' (.error e) →
      scope.isFinal e = true) :
    ∃ h', h = .answered (.attempting n) () :: .answered .rest () :: h' ∧
      (operation n).run.Yields h' r := by
  have hrun {h' t : List Exchange} {x : Except RelayError α}
      (hg : Attempt.Guarded s (operation n) h' x) (hh' : ∀ y ∈ h' ++ t, O y) :
      ∃ h'', h' = .answered .rest () :: h'' ∧ (operation n).run.Yields h'' x ∧
        ∀ y ∈ h'', O y := by
    have hmem (y : Exchange) (hy : y ∈ h') : O y := hh' y (List.mem_append_left t hy)
    obtain ⟨h'', rfl, hop⟩ := hg.answered fun y hy => hO y (hmem y hy)
    exact ⟨h'', rfl, hop, fun y hy => hmem y (List.mem_cons_of_mem _ hy)⟩
  cases hr with
  | succeeded hg =>
      obtain ⟨h'', rfl, hop, _⟩ := hrun (t := []) hg (by simpa using (List.forall_mem_cons.mp hh).2)
      exact ⟨h'', rfl, hop⟩
  | failed hg _ =>
      obtain ⟨h'', rfl, hop, _⟩ := hrun (t := []) hg (by simpa using (List.forall_mem_cons.mp hh).2)
      exact ⟨h'', rfl, hop⟩
  | exhausted hg hnot =>
      obtain ⟨h'', rfl, hop, hO'⟩ :=
        hrun (t := []) hg (by simpa using (List.forall_mem_cons.mp hh).2)
      rw [hfinal h'' _ hO' hop] at hnot
      cases hnot
  | interrupted hg hnot _ =>
      obtain ⟨h'', rfl, hop, hO'⟩ := hrun hg (List.forall_mem_cons.mp hh).2
      rw [hfinal h'' _ hO' hop] at hnot
      cases hnot
  | again hg hnot _ =>
      obtain ⟨h'', rfl, hop, hO'⟩ := hrun hg (List.forall_mem_cons.mp hh).2
      rw [hfinal h'' _ hO' hop] at hnot
      cases hnot

theorem asks_attemptsFrom {R : Request → Prop} (hloop : ∀ r, scope.LoopRequest r → R r)
    (hop : ∀ n, Asks R (operation n).run) (left n : Nat) (history : List String) :
    Asks R (p.attemptsFrom scope s operation left n history) := by
  have hrest : R .rest := hloop _ trivial
  rw [attemptsFrom_eq]
  refine (asks_request (hloop (.attempting n) trivial)).bind fun _ => ?_
  refine (Attempt.asks_guard hrest (hop n)).bind fun r => ?_
  cases r with
  | ok a => trivial
  | error e =>
      dsimp only
      split
      · trivial
      · cases left with
        | zero => trivial
        | succ left =>
            have hann : Asks R (scope.announce n e) := by
              unfold RetryScope.announce
              split
              · next hsub => exact asks_request (hloop (.retrying n e) hsub)
              · trivial
            exact hann.bind fun _ => Attempt.asks_bind
              (Attempt.asks_guard hrest (Attempt.asks_request (hloop (.pause _) trivial)))
              fun _ => asks_attemptsFrom hloop hop left _ _

theorem asks_step {R : Request → Prop} {x : Attempt α}
    (hloop : ∀ r, RetryScope.step.LoopRequest r → R r) (hx : Asks R x.run) : Asks R (p.step s x).run :=
  asks_attemptsFrom hloop (fun _ => hx) _ _ _

end RetryPolicy

end PacketRelay
