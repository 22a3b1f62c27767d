import PacketRelay.Proofs.Program.Clock
import PacketRelay.Proofs.Retry.Attempts

/-!
# The course of a retry loop

A loop calls its operation, and calls it again one pause after each failure that does not decide the
result.  The last call settles the loop, unless a signal cancels it before the call, during the call
or in the pause after it.
-/

namespace PacketRelay.RetryPolicy

open Program Timed Attempt

variable {α : Type} {p : RetryPolicy} {scope : RetryScope} {s : Signal}
  {operation : Nat → Attempt α}

/-- What is exchanged before call `n` begins, which then goes on from the same time. -/
def opening (n : Nat) : List Timed :=
  [instant (.answered (.attempting n) ()), instant (.answered .rest ())]

/-- The announcement of another call after call `n` failed, which takes no time. -/
def announcing (scope : RetryScope) (n : Nat) (e : RelayError) : List Timed :=
  (announcement scope n e).map instant

/-- What is exchanged between call `n`, which failed, and the next one. -/
def between (p : RetryPolicy) (scope : RetryScope) (n : Nat) (e : RelayError) : List Timed :=
  announcing scope n e ++
    [instant (.answered .rest ()), ⟨.answered (.pause p.delay.millis) (), p.delay.millis⟩]

/-- Calls that failed with these errors, and the pauses after them, from call `n` at one time up to
call `m` at another. -/
inductive Failing (p : RetryPolicy) (scope : RetryScope) (operation : Nat → Attempt α) :
    (n clock : Nat) → List RelayError → List Timed → (m clock' : Nat) → Prop where
  | none {n clock : Nat} : Failing p scope operation n clock [] [] n clock
  | call {n clock m clock' : Nat} {e : RelayError} {es : List RelayError} {h h' : List Timed} :
    (operation n).run.YieldsFrom clock h (.error e) →
      Failing p scope operation (n + 1) (clock + elapsed h + p.delay.millis) es h' m clock' →
      Failing p scope operation n clock (e :: es)
        (opening n ++ (h ++ (p.between scope n e ++ h'))) m clock'

/-- The histories by which a signal cancels a loop from call `n` on: in the call, or in the pause
after it. -/
inductive Cancelled (p : RetryPolicy) (scope : RetryScope) (s : Signal)
    (operation : Nat → Attempt α) (n clock : Nat) : List Timed → Prop where
  | call {h : List Timed} : Dropped s (operation n) clock h →
      Cancelled p scope s operation n clock (instant (.answered (.attempting n) ()) :: h)
  | pause {h hp : List Timed} {e : RelayError} : (operation n).run.YieldsFrom clock h (.error e) →
      Dropped s (Attempt.request (.pause p.delay.millis)) (clock + elapsed h) hp →
      Cancelled p scope s operation n clock (opening n ++ (h ++ (announcing scope n e ++ hp)))

/-- The result of call `n`, after which `left` more are allowed, settles the loop. -/
inductive Settles (p : RetryPolicy) (scope : RetryScope) (left n : Nat) (history : List String) :
    Except RelayError α → Except RelayError α → Prop where
  | succeeded {a : α} : Settles p scope left n history (.ok a) (.ok a)
  | failed {e : RelayError} : scope.isFinal e = true →
      Settles p scope left n history (.error e) (.error e)
  | exhausted {e : RelayError} : scope.isFinal e = false → left = 0 →
      Settles p scope left n history (.error e)
        (.error (p.exhausted n (history ++ [e.message]) e))

theorem Failing.eq_add {n clock m clock' : Nat} {es : List RelayError} {h : List Timed}
    (hf : Failing p scope operation n clock es h m clock') : m = n + es.length := by
  induction hf with
  | none => rfl
  | call _ _ ih => rw [ih, List.length_cons, Nat.add_assoc, Nat.add_comm 1]

theorem elapsed_announcing (n : Nat) (e : RelayError) : elapsed (announcing scope n e) = 0 := by
  unfold announcing announcement
  split <;> rfl

theorem spared_opening (n : Nat) : ∀ x ∈ opening n, x.exchange.Spared s := by
  simp [opening, instant, Exchange.Spared]

theorem spared_announcing (n : Nat) (e : RelayError) :
    ∀ x ∈ announcing scope n e, x.exchange.Spared s := by
  unfold announcing announcement
  split
  · exact List.forall_mem_singleton.mpr trivial
  · simp

theorem spared_between (n : Nat) (e : RelayError) :
    ∀ x ∈ p.between scope n e, x.exchange.Spared s :=
  List.forall_mem_append.mpr ⟨spared_announcing n e, by simp [instant, Exchange.Spared]⟩

theorem yieldsFrom_announce_iff {n clock : Nat} {e : RelayError} {h : List Timed} :
    (scope.announce n e).YieldsFrom clock h () ↔ h = announcing scope n e := by
  unfold RetryScope.announce announcing announcement
  split
  · refine yieldsFrom_request_iff.trans ⟨?_, ?_⟩
    · rintro ⟨millis, rfl, hlasts | hmillis, _⟩
      · exact hlasts.elim
      · obtain rfl : millis = 0 := hmillis
        rfl
    · rintro rfl
      exact ⟨0, rfl, .inr rfl, trivial⟩
  · exact yieldsFrom_done_iff.trans (and_iff_left rfl)

/-- After a failure comes a pause, in which the loop is cancelled or after which it goes on. -/
theorem yieldsFrom_proceed_succ {left n clock : Nat} {history : List String} {e : RelayError}
    {h : List Timed} {r : Except RelayError α}
    (hy : (p.proceed scope s operation n history e (left + 1)).YieldsFrom clock h r) :
    (∃ hp, h = announcing scope n e ++ hp ∧ r = .error .cancelled ∧
      Dropped s (Attempt.request (.pause p.delay.millis)) clock hp) ∨
    ∃ h', h = p.between scope n e ++ h' ∧
      (p.attemptsFrom scope s operation left (n + 1) (history ++ [e.message])).YieldsFrom
        (clock + p.delay.millis) h' r := by
  obtain ⟨_, ⟨⟩, _, rfl, hannounce, hrest⟩ := yieldsFrom_bind_iff.mp hy
  obtain rfl := yieldsFrom_announce_iff.mp hannounce
  rw [elapsed_announcing, Nat.add_zero, ExceptT.run_bind] at hrest
  obtain ⟨hp, x, h', rfl, hpause, hnext⟩ := yieldsFrom_bind_iff.mp hrest
  obtain ⟨_, rfl, hrun⟩ | ⟨hdropped, rfl⟩ := yieldsFrom_guard hpause
  · obtain ⟨_, millis, rfl, ⟨_, hmillis⟩, rfl⟩ := Attempt.yieldsFrom_request_iff.mp hrun
    obtain rfl : millis = p.delay.millis := hmillis
    refine .inr ⟨h', by rw [between, List.append_assoc], ?_⟩
    simpa [instant] using hnext
  · obtain ⟨rfl, rfl⟩ := yieldsFrom_done_iff.mp hnext
    exact .inl ⟨hp, by rw [List.append_nil], rfl, hdropped⟩

/-- The first call of a loop settles it, or is followed by another one, unless the loop is
cancelled. -/
theorem yieldsFrom_attemptsFrom_cases {left n clock : Nat} {history : List String} {h : List Timed}
    {r : Except RelayError α}
    (hy : (p.attemptsFrom scope s operation left n history).YieldsFrom clock h r) :
    (Cancelled p scope s operation n clock h ∧ r = .error .cancelled) ∨
    (∃ x h₁, h = opening n ++ h₁ ∧ (operation n).run.YieldsFrom clock h₁ x ∧
      Settles p scope left n history x r) ∨
    ∃ e left' h₁ h', left = left' + 1 ∧ h = opening n ++ (h₁ ++ (p.between scope n e ++ h')) ∧
      (operation n).run.YieldsFrom clock h₁ (.error e) ∧ scope.isFinal e = false ∧
      (p.attemptsFrom scope s operation left' (n + 1) (history ++ [e.message])).YieldsFrom
        (clock + elapsed h₁ + p.delay.millis) h' r := by
  rw [attemptsFrom_eq] at hy
  obtain ⟨_, ⟨⟩, _, rfl, hask, hbody⟩ := yieldsFrom_bind_iff.mp hy
  obtain ⟨millis, rfl, hmillis, _⟩ := yieldsFrom_request_iff.mp hask
  obtain rfl : millis = 0 := hmillis.resolve_left not_false
  obtain ⟨_, x, h₂, rfl, hguard, hrest⟩ := yieldsFrom_bind_iff.mp hbody
  obtain ⟨hdropped, rfl⟩ | ⟨h₁, rfl, hx⟩ := (yieldsFrom_guard hguard).symm
  · obtain ⟨rfl, rfl⟩ := yieldsFrom_done_iff.mp hrest
    rw [List.append_nil]
    exact .inl ⟨.call hdropped, rfl⟩
  have hclock : clock + elapsed [(⟨.answered (.attempting n) (), 0⟩ : Timed)] +
      elapsed (instant (.answered .rest ()) :: h₁) = clock + elapsed h₁ := by
    simp [instant]
  rw [hclock] at hrest
  cases x with
  | ok a =>
      obtain ⟨rfl, rfl⟩ := yieldsFrom_done_iff.mp hrest
      rw [List.append_nil]
      exact .inr (.inl ⟨.ok a, h₁, rfl, hx, .succeeded⟩)
  | error e =>
      dsimp only at hrest
      split at hrest
      · next hfinal =>
        obtain ⟨rfl, rfl⟩ := yieldsFrom_done_iff.mp hrest
        rw [List.append_nil]
        exact .inr (.inl ⟨.error e, h₁, rfl, hx, .failed hfinal⟩)
      · next hnot =>
        have hfinal : scope.isFinal e = false := by simpa using hnot
        cases left with
        | zero =>
            obtain ⟨rfl, rfl⟩ := yieldsFrom_done_iff.mp hrest
            rw [List.append_nil]
            exact .inr (.inl ⟨.error e, h₁, rfl, hx, .exhausted hfinal rfl⟩)
        | succ left =>
            obtain ⟨hp, rfl, rfl, hpause⟩ | ⟨h', rfl, hnext⟩ := yieldsFrom_proceed_succ hrest
            · exact .inl ⟨.pause hx hpause, rfl⟩
            · exact .inr (.inr ⟨e, left, h₁, h', rfl, rfl, hx, hfinal, hnext⟩)

/-- A loop calls its operation until a call settles it or a signal cancels it. -/
theorem yieldsFrom_attemptsFrom {left n clock : Nat} {history : List String} {h : List Timed}
    {r : Except RelayError α}
    (hy : (p.attemptsFrom scope s operation left n history).YieldsFrom clock h r) :
    ∃ es h₁ h₂ m clock', h = h₁ ++ h₂ ∧ Failing p scope operation n clock es h₁ m clock' ∧
      es.length ≤ left ∧ (∀ e ∈ es, scope.isFinal e = false) ∧
      ((∃ x h₃, h₂ = opening m ++ h₃ ∧ (operation m).run.YieldsFrom clock' h₃ x ∧
          Settles p scope (left - es.length) m (history ++ es.map RelayError.message) x r) ∨
        Cancelled p scope s operation m clock' h₂ ∧ r = .error .cancelled) := by
  obtain ⟨hcancelled, rfl⟩ | ⟨x, h₁, rfl, hx, hsettles⟩ |
    ⟨e, left, h₁, h', rfl, rfl, hx, hfinal, hnext⟩ := yieldsFrom_attemptsFrom_cases hy
  · exact ⟨[], [], h, n, clock, rfl, .none, Nat.zero_le _, by simp, .inr ⟨hcancelled, rfl⟩⟩
  · exact ⟨[], [], _, n, clock, rfl, .none, Nat.zero_le _, by simp,
      .inl ⟨x, h₁, rfl, hx, by simpa using hsettles⟩⟩
  -- the rest is a loop with one call less, whose history begins with this error
  · obtain ⟨es, h₂, h₃, m, clock', rfl, hfailing, hleft, hes, hend⟩ :=
      yieldsFrom_attemptsFrom hnext
    refine ⟨e :: es, _, h₃, m, clock', ?_, .call hx hfailing, by simpa using hleft,
      List.forall_mem_cons.mpr ⟨hfinal, hes⟩, ?_⟩
    · simp only [List.append_assoc]
    · simpa using hend
termination_by left

theorem yieldsSpared_attemptsFrom_of {left n clock : Nat} {history : List String} {h h' : List Timed}
    {x r : Except RelayError α} (hx : (operation n).run.YieldsSpared s clock h x)
    (hrest : Program.YieldsSpared s (clock + elapsed h) (match x with
      | .ok a => done (.ok a)
      | .error e =>
        if scope.isFinal e then done (.error e)
        else p.proceed scope s operation n history e left) h' r) :
    (p.attemptsFrom scope s operation left n history).YieldsSpared s clock
      (opening n ++ (h ++ h')) r := by
  have hattempting : ¬ Request.Lasts (.attempting n) := not_false
  rw [attemptsFrom_eq]
  refine yieldsSpared_bind_iff.mpr ⟨[instant (.answered (.attempting n) ())], (), _, rfl,
    (yieldsSpared_instant_iff hattempting).mpr ⟨rfl, .inr rfl, trivial⟩, ?_⟩
  refine yieldsSpared_bind_iff.mpr ⟨instant (.answered .rest ()) :: h, x, h', rfl,
    yieldsSpared_guard_iff.mpr ⟨h, rfl, hx⟩, ?_⟩
  have hclock : clock + elapsed [instant (.answered (.attempting n) ())] +
      elapsed (instant (.answered .rest ()) :: h) = clock + elapsed h := by
    simp [instant]
  rwa [hclock]

theorem yieldsSpared_attemptsFrom_of_settles {left n clock : Nat} {history : List String}
    {h : List Timed} {x r : Except RelayError α}
    (hx : (operation n).run.YieldsSpared s clock h x) (hsettles : Settles p scope left n history x r) :
    (p.attemptsFrom scope s operation left n history).YieldsSpared s clock (opening n ++ h) r := by
  rw [← List.append_nil h]
  apply yieldsSpared_attemptsFrom_of hx
  cases hsettles with
  | succeeded => exact yieldsSpared_done_iff.mpr ⟨rfl, rfl⟩
  | failed hfinal =>
      dsimp only
      rw [if_pos hfinal]
      exact yieldsSpared_done_iff.mpr ⟨rfl, rfl⟩
  | exhausted hfinal hleft =>
      dsimp only
      rw [hfinal, hleft]
      exact yieldsSpared_done_iff.mpr ⟨rfl, rfl⟩

theorem yieldsSpared_attemptsFrom_succ {left n clock : Nat} {history : List String}
    {h h' : List Timed} {e : RelayError} {r : Except RelayError α}
    (hx : (operation n).run.YieldsSpared s clock h (.error e)) (hfinal : scope.isFinal e = false)
    (hnext : (p.attemptsFrom scope s operation left (n + 1) (history ++ [e.message])).YieldsSpared s
      (clock + elapsed h + p.delay.millis) h' r) :
    (p.attemptsFrom scope s operation (left + 1) n history).YieldsSpared s clock
      (opening n ++ (h ++ (p.between scope n e ++ h'))) r := by
  apply yieldsSpared_attemptsFrom_of hx
  dsimp only
  rw [hfinal, between, List.append_assoc]
  have hannounce : (scope.announce n e).YieldsSpared s (clock + elapsed h) (announcing scope n e) () :=
    ⟨yieldsFrom_announce_iff.mpr rfl, spared_announcing n e⟩
  refine yieldsSpared_bind_iff.mpr ⟨_, (), _, rfl, hannounce, ?_⟩
  have hpause : (Attempt.guard s (Attempt.request (.pause p.delay.millis))).run.YieldsSpared s
      (clock + elapsed h + elapsed (announcing scope n e))
      [instant (.answered .rest ()), ⟨.answered (.pause p.delay.millis) (), p.delay.millis⟩]
      (.ok ()) :=
    yieldsSpared_guard_iff.mpr ⟨_, rfl, Attempt.yieldsSpared_request_iff.mpr
      ⟨(), _, rfl, ⟨.inl trivial, rfl⟩, rfl⟩⟩
  rw [ExceptT.run_bind]
  refine yieldsSpared_bind_iff.mpr ⟨_, _, _, rfl, hpause, ?_⟩
  simpa [instant, elapsed_announcing] using hnext

theorem Failing.yieldsSpared {n clock m clock' left : Nat} {history : List String}
    {es : List RelayError} {h h' : List Timed} {r : Except RelayError α}
    (hf : Failing p scope operation n clock es h m clock') (hh : ∀ x ∈ h, x.exchange.Spared s)
    (hes : ∀ e ∈ es, scope.isFinal e = false)
    (hrest : (p.attemptsFrom scope s operation left m
      (history ++ es.map RelayError.message)).YieldsSpared s clock' h' r) :
    (p.attemptsFrom scope s operation (left + es.length) n history).YieldsSpared s clock
      (h ++ h') r := by
  induction hf generalizing history with
  | none => simpa using hrest
  | @call n clock m clock' e es h h'' hx _ ih =>
      obtain ⟨_, hh'⟩ := List.forall_mem_append.mp hh
      obtain ⟨hspared, hh''⟩ := List.forall_mem_append.mp hh'
      obtain ⟨hfinal, hes⟩ := List.forall_mem_cons.mp hes
      have hnext : (p.attemptsFrom scope s operation (left + es.length) (n + 1)
          (history ++ [e.message])).YieldsSpared s (clock + elapsed h + p.delay.millis)
          (h'' ++ h') r :=
        ih (List.forall_mem_append.mp hh'').2 hes (by simpa using hrest)
      rw [List.length_cons, ← Nat.add_assoc]
      simpa only [List.append_assoc] using
        yieldsSpared_attemptsFrom_succ ⟨hx, hspared⟩ hfinal hnext

theorem exists_failing {o : Nat → Except RelayError α}
    (hop : ∀ n clock, ∃ h, (operation n).run.YieldsSpared s clock h (o n)) {count : Nat} (n clock : Nat)
    (hfails : ∀ i < count, ∃ e, o (n + i) = .error e) :
    ∃ es h clock', Failing p scope operation n clock es h (n + count) clock' ∧
      es.length = count ∧ (∀ i e, es[i]? = some e → o (n + i) = .error e) ∧
      ∀ x ∈ h, x.exchange.Spared s := by
  induction count generalizing n clock with
  | zero => exact ⟨[], [], clock, .none, rfl, by simp, by simp⟩
  | succ count ih =>
      obtain ⟨h, hx, hh⟩ := hop n clock
      obtain ⟨e, he⟩ := hfails 0 count.succ_pos
      rw [Nat.add_zero] at he
      rw [he] at hx
      have hshift (i : Nat) : n + 1 + i = n + (i + 1) := by omega
      obtain ⟨es, h', clock', hfailing, hlength, hagrees, hh'⟩ :=
        ih (n + 1) (clock + elapsed h + p.delay.millis) (by
          intro i hi
          rw [hshift]
          exact hfails (i + 1) (by omega))
      rw [hshift] at hfailing
      refine ⟨e :: es, _, clock', .call hx hfailing, by simpa using hlength, ?_, ?_⟩
      · intro i e' he'
        cases i with
        | zero =>
            obtain rfl := Option.some.inj he'
            exact he
        | succ i => rw [← hshift, hagrees i e' he']
      · simp only [List.forall_mem_append]
        exact ⟨spared_opening n, hh, spared_between n e, hh'⟩

end PacketRelay.RetryPolicy
