import PacketRelay.Proofs.Program.Heeding

/-!
# Programs that are cancelled by a signal

Such a program waits under its signal only, and whatever was stopped comes to its end at once, with
a result that says so.  A program that is cancelled before some effects makes them when there is
nothing left to wait for.  So a signal that fires while the program is suspended finds none of them
made, and none is made later.
-/

namespace PacketRelay

/-- Requests that are answered at once, without a node. -/
def Request.Instant : Request → Prop
  | .start .. => False
  | r => ¬ r.Waits

theorem Request.Instant.not_waits {r : Request} (hr : r.Instant) : ¬ r.Waits := by
  cases r with
  | start p c => exact hr.elim
  | _ => exact hr

namespace Program

variable {α β : Type} {s : Signal} {X : Request → Prop} {c : α → Prop} {d : β → Prop}

/-- The program waits for nothing. -/
def Calm : Program α → Prop := Within Request.Instant fun _ => False

/-- The program comes to an end of the given kind without waiting and without effects. -/
def Winds (X : Request → Prop) (c : α → Prop) : Program α → Prop
  | .done a => c a
  | .ask r next => (r.Instant ∧ ¬ X r) ∧ ∀ a, Winds X c (next a)
  | .watch .. => False

/-- The program waits under the signal only, and winds up when it is stopped. -/
def Cancels (s : Signal) (X : Request → Prop) (c : α → Prop) : Program α → Prop
  | .done _ => True
  | .ask r next => r.Instant ∧ ∀ a, Cancels s X c (next a)
  | .watch s' _ next stop => (s' = s ∧ stop.Winds X c) ∧ ∀ a, Cancels s X c (next a)

/-- Moreover the program makes no effect before its last wait is over. -/
def CancelsBefore (s : Signal) (X : Request → Prop) (c : α → Prop) : Program α → Prop
  | .done _ => True
  | .ask r next => (r.Instant ∧ (X r → ∀ a, (next a).Calm)) ∧ ∀ a, CancelsBefore s X c (next a)
  | .watch s' r next stop =>
    (s' = s ∧ ¬ X r ∧ stop.Winds X c) ∧ ∀ a, CancelsBefore s X c (next a)

theorem Winds.calm {p : Program α} (hp : p.Winds X c) : p.Calm := by
  induction p with
  | done a => trivial
  | ask r next ih => exact ⟨hp.1.1, fun a => ih a (hp.2 a)⟩
  | watch s' r next stop _ _ => exact hp.elim

theorem Winds.bind {p : Program α} {f : α → Program β} (hp : p.Winds X c)
    (hf : ∀ a, c a → (f a).Winds X d) : (p.bind f).Winds X d := by
  induction p with
  | done a => exact hf a hp
  | ask r next ih => exact ⟨hp.1, fun a => ih a (hp.2 a)⟩
  | watch s' r next stop _ _ => exact hp.elim

theorem Calm.cancels {p : Program α} (hp : p.Calm) : p.Cancels s X c := by
  induction p with
  | done a => trivial
  | ask r next ih => exact ⟨hp.1, fun a => ih a (hp.2 a)⟩
  | watch s' r next stop _ _ => exact hp.1.elim

theorem Calm.cancelsBefore {p : Program α} (hp : p.Calm) : p.CancelsBefore s X c := by
  induction p with
  | done a => trivial
  | ask r next ih => exact ⟨⟨hp.1, fun _ => hp.2⟩, fun a => ih a (hp.2 a)⟩
  | watch s' r next stop _ _ => exact hp.1.elim

theorem Winds.heeds {p : Program α} (hp : p.Winds X c) : p.Heeds s Request.Instant := by
  induction p with
  | done a => trivial
  | ask r next ih => exact ⟨hp.1.1, fun a => ih a (hp.2 a)⟩
  | watch s' r next stop _ _ => exact hp.elim

theorem Cancels.heeds {p : Program α} (hp : p.Cancels s X c) : p.Heeds s Request.Instant := by
  induction p with
  | done a => trivial
  | ask r next ih => exact ⟨hp.1, fun a => ih a (hp.2 a)⟩
  | watch s' r next stop ih _ => exact ⟨.inl hp.1.1, fun a => ih a (hp.2 a), hp.1.2.heeds⟩

theorem CancelsBefore.cancels {p : Program α} (hp : p.CancelsBefore s X c) : p.Cancels s X c := by
  induction p with
  | done a => trivial
  | ask r next ih => exact ⟨hp.1.1, fun a => ih a (hp.2 a)⟩
  | watch s' r next stop ih _ => exact ⟨⟨hp.1.1, hp.1.2.2⟩, fun a => ih a (hp.2 a)⟩

/-- Where nothing counts as an effect, none is made too early. -/
theorem Cancels.cancelsBefore {p : Program α} (hp : p.Cancels s (fun _ => False) c) :
    p.CancelsBefore s (fun _ => False) c := by
  induction p with
  | done a => trivial
  | ask r next ih => exact ⟨⟨hp.1, False.elim⟩, fun a => ih a (hp.2 a)⟩
  | watch s' r next stop ih _ => exact ⟨⟨hp.1.1, not_false, hp.1.2⟩, fun a => ih a (hp.2 a)⟩

/-- Only requests that do not wait are left unwatched. -/
theorem Heeds.vigilant {p : Program α} (hp : p.Heeds s Request.Instant) :
    Within (fun r => ¬ r.Waits) (fun _ => True) p := by
  induction p with
  | done a => trivial
  | ask r next ih => exact ⟨hp.1.not_waits, fun a => ih a (hp.2 a)⟩
  | watch s' r next stop ih ihs => exact ⟨trivial, fun a => ih a (hp.2.1 a), ihs hp.2.2⟩

theorem Cancels.bind {p : Program α} {f : α → Program β} (hp : p.Cancels s X c)
    (hf : ∀ a, (f a).Cancels s X d) (hstop : ∀ a, c a → (f a).Winds X d) :
    (p.bind f).Cancels s X d := by
  induction p with
  | done a => exact hf a
  | ask r next ih => exact ⟨hp.1, fun a => ih a (hp.2 a)⟩
  | watch s' r next stop ih _ => exact ⟨⟨hp.1.1, hp.1.2.bind hstop⟩, fun a => ih a (hp.2 a)⟩

/-- A first part without effects. -/
theorem Cancels.bind_before {p : Program α} {f : α → Program β} (hp : p.Cancels s X c)
    (hquiet : Asks (fun r => ¬ X r) p) (hf : ∀ a, (f a).CancelsBefore s X d)
    (hstop : ∀ a, c a → (f a).Winds X d) : (p.bind f).CancelsBefore s X d := by
  induction p with
  | done a => exact hf a
  | ask r next ih =>
      exact ⟨⟨hp.1, fun hr => absurd hr hquiet.1⟩, fun a => ih a (hp.2 a) (hquiet.2 a)⟩
  | watch s' r next stop ih _ =>
      exact ⟨⟨hp.1.1, hquiet.1, hp.1.2.bind hstop⟩, fun a => ih a (hp.2 a) (hquiet.2.1 a)⟩

/-- A last part without waits. -/
theorem CancelsBefore.bind_calm {p : Program α} {f : α → Program β} (hp : p.CancelsBefore s X c)
    (hf : ∀ a, (f a).Calm) (hstop : ∀ a, c a → (f a).Winds X d) :
    (p.bind f).CancelsBefore s X d := by
  induction p with
  | done a => exact (hf a).cancelsBefore
  | ask r next ih =>
      exact ⟨⟨hp.1.1, fun hr a => (hp.1.2 hr a).bind hf⟩, fun a => ih a (hp.2 a)⟩
  | watch s' r next stop ih _ =>
      exact ⟨⟨hp.1.1, hp.1.2.1, hp.1.2.2.bind hstop⟩, fun a => ih a (hp.2 a)⟩

end Program

namespace Attempt

open Program

variable {α β : Type} {s : Signal} {X : Request → Prop}

/-- The result says that the signal fired. -/
def IsCancelled : Except RelayError α → Prop := fun r => r = .error .cancelled

theorem winds_cancelled : (Program.done (.error .cancelled)).Winds X (IsCancelled (α := α)) := rfl

theorem cancels_bind {x : Attempt α} {f : α → Attempt β} (hx : x.run.Cancels s X IsCancelled)
    (hf : ∀ a, (f a).run.Cancels s X IsCancelled) : (x >>= f).run.Cancels s X IsCancelled := by
  rw [ExceptT.run_bind, bind_eq]
  refine hx.bind (fun r => ?_) ?_
  · cases r with
    | ok a => exact hf a
    | error e => trivial
  · rintro r rfl
    exact winds_cancelled

/-- A first part without effects. -/
theorem cancelsBefore_bind {x : Attempt α} {f : α → Attempt β}
    (hx : x.run.Cancels s X IsCancelled) (hquiet : Asks (fun r => ¬ X r) x.run)
    (hf : ∀ a, (f a).run.CancelsBefore s X IsCancelled) :
    (x >>= f).run.CancelsBefore s X IsCancelled := by
  rw [ExceptT.run_bind, bind_eq]
  refine hx.bind_before hquiet (fun r => ?_) ?_
  · cases r with
    | ok a => exact hf a
    | error e => trivial
  · rintro r rfl
    exact winds_cancelled

theorem calm_bind {x : Attempt α} {f : α → Attempt β} (hx : x.run.Calm)
    (hf : ∀ a, (f a).run.Calm) : (x >>= f).run.Calm := within_bind hx hf

theorem calm_request {r : Request} (hr : r.Instant) : (Attempt.request r).run.Calm :=
  within_request hr

theorem cancels_watchAll {c : α → Prop} {p stop : Program α} (hp : p.Bare)
    (hstop : stop.Winds X c) : (watchAll s stop p).Cancels s X c := by
  induction p with
  | done a => trivial
  | ask r next ih => exact ⟨⟨rfl, hstop⟩, fun a => ih a (hp.2 a)⟩
  | watch s' r next stop' _ _ => exact hp.1.elim

theorem cancels_guard {x : Attempt α} (hx : x.run.Bare) :
    (guard s x).run.Cancels s X IsCancelled :=
  ⟨⟨rfl, winds_cancelled⟩, fun _ => cancels_watchAll hx winds_cancelled⟩

end Attempt

namespace RetryPolicy

open Program

variable {α : Type} {p : RetryPolicy} {scope : RetryScope} {s : Signal} {X : Request → Prop}

theorem isFinal_cancelled (scope : RetryScope) : scope.isFinal .cancelled = true := by
  simp [RetryScope.isFinal, RelayError.isRetryable]

theorem calm_announce (n : Nat) (e : RelayError) : (scope.announce n e).Calm := by
  unfold RetryScope.announce
  split
  · exact Program.within_request not_false
  · trivial

theorem cancels_attemptsFrom {operation : Nat → Attempt α} (hop : ∀ n, (operation n).run.Bare)
    (left n : Nat) (history : List String) :
    (p.attemptsFrom scope s operation left n history).Cancels s X Attempt.IsCancelled := by
  have hattempting : (request (.attempting n)).Calm := Program.within_request not_false
  have hpause : (Attempt.request (.pause p.delay.millis)).run.Bare :=
    Attempt.within_request trivial
  rw [attemptsFrom_eq]
  refine Cancels.bind (c := fun _ => False) hattempting.cancels (fun _ => ?_) fun _ => False.elim
  refine Cancels.bind (Attempt.cancels_guard (hop n)) (fun r => ?_) ?_
  · cases r with
    | ok a => trivial
    | error e =>
        dsimp only
        split
        · trivial
        · cases left with
          | zero => trivial
          | succ left =>
              refine Cancels.bind (c := fun _ => False) (calm_announce n e).cancels (fun _ => ?_)
                fun _ => False.elim
              exact Attempt.cancels_bind (Attempt.cancels_guard hpause)
                fun _ => cancels_attemptsFrom hop left _ _
  · rintro r rfl
    dsimp only
    rw [if_pos (isFinal_cancelled scope)]
    exact Attempt.winds_cancelled

theorem cancels_step {x : Attempt α} (hx : x.run.Bare) :
    (p.step s x).run.Cancels s X Attempt.IsCancelled :=
  cancels_attemptsFrom (fun _ => hx) _ _ _

end RetryPolicy

namespace Program

variable {α : Type} {s : Signal} {X : Request → Prop} {c : α → Prop} {p q : Program α}
  {h : List Exchange}

theorem Step.cancelsBefore {x : Exchange} (hstep : Step p x q) (hp : p.CancelsBefore s X c) :
    q.CancelsBefore s X c := by
  cases hstep with
  | ask a => exact hp.2 a
  | watch a => exact hp.2 a
  | stop => exact hp.1.2.2.calm.cancelsBefore

theorem Reaches.cancelsBefore (hreach : Reaches p h q) (hp : p.CancelsBefore s X c) :
    q.CancelsBefore s X c := by
  induction hreach with
  | refl p => exact hp
  | step hstep _ ih => exact ih (hstep.cancelsBefore hp)

theorem Calm.reaches (hp : p.Calm) (hreach : Reaches p h q) : q.Calm := hreach.within hp

/-- A program that is about to make an effect waits for nothing any more. -/
theorem CancelsBefore.calm_of_ask {r : Request} {next : r.Answer → Program α}
    (hp : (ask r next).CancelsBefore s X c) (hr : X r) : (ask r next).Calm :=
  ⟨hp.1.1, hp.1.2 hr⟩

end Program

/-- A stopped program: its signal has fired, and it has only to wind up. -/
def Stage.Stopped {α : Type} (n : Nat) (X : Request → Prop) (c : α → Prop) : Stage α → Prop
  | .running p =>
    p.Winds X c ∨ ∃ r next stop, p = .watch (some n) r next stop ∧ stop.Winds X c
  | .waiting r next interrupt =>
    interrupt = none ∧ (Program.ask r next).Winds X c ∨
      ∃ stop, interrupt = some (some n, stop) ∧ stop.Winds X c

namespace Moment

variable {α : Type} {n : Nat} {s : Signal} {X : Request → Prop} {c : α → Prop} {m m' : Moment α}
  {es : List Occurrence}

/-- Nothing that waits is made, and no effect. -/
def Quiet (X : Request → Prop) : Occurrence → Prop
  | .made r => r.Instant ∧ ¬ X r
  | _ => True

theorem Step.stopped {e : Occurrence} (hstep : Step m e m') (hn : n ∈ m.fired)
    (hm : m.stage.Stopped n X c) : m'.stage.Stopped n X c ∧ Quiet X e := by
  cases hstep with
  | ask =>
      rcases hm with hwinds | ⟨_, _, _, heq, _⟩
      · exact ⟨.inl ⟨rfl, hwinds⟩, hwinds.1⟩
      · cases heq
  | watch hfired =>
      rcases hm with hwinds | ⟨_, _, _, heq, _⟩
      · exact hwinds.elim
      · cases heq
        exact absurd hn hfired
  | skip _ =>
      rcases hm with hwinds | ⟨_, _, _, heq, hstop⟩
      · exact hwinds.elim
      · cases heq
        exact ⟨.inl hstop, trivial⟩
  | answer a hlive =>
      rcases hm with ⟨rfl, hwinds⟩ | ⟨stop, rfl, _⟩
      · exact ⟨.inl (hwinds.2 a), trivial⟩
      · exact absurd hn (hlive _ _ rfl)
  | interrupt _ =>
      rcases hm with ⟨hnone, _⟩ | ⟨stop, heq, hstop⟩
      · cases hnone
      · cases heq
        exact ⟨.inl hstop, trivial⟩
  | fire k => exact ⟨hm, trivial⟩

/-- A stopped program stays stopped and does nothing more than to wind up. -/
theorem Run.stopped (hr : Run m es m') (hn : n ∈ m.fired) (hm : m.stage.Stopped n X c) :
    m'.stage.Stopped n X c ∧ ∀ e ∈ es, Quiet X e := by
  induction hr with
  | refl m => exact ⟨hm, by simp⟩
  | step hstep _ ih =>
      rcases hstep.stopped hn hm with ⟨hm', he⟩
      rcases ih (hstep.fired_mono hn) hm' with ⟨hend, hes⟩
      exact ⟨hend, List.forall_mem_cons.mpr ⟨he, hes⟩⟩

theorem result_of_stopped {a : α} (hm : m.stage.Stopped n X c)
    (hdone : m.stage = .running (.done a)) : c a := by
  rw [hdone] at hm
  rcases hm with hwinds | ⟨_, _, _, heq, _⟩
  · exact hwinds
  · cases heq

theorem exists_run_of_winds {F : Set Nat} {p : Program α} (hp : p.Winds X c) :
    ∃ es a, Run ⟨F, .running p⟩ es ⟨F, .running (.done a)⟩ := by
  induction p with
  | done a => exact ⟨[], a, .refl _⟩
  | ask r next ih =>
      rcases r.nonempty_answer with ⟨b⟩
      rcases ih b (hp.2 b) with ⟨es, a, hrest⟩
      exact ⟨.made r :: .answered r b :: es, a, .step .ask (.step (.answer b nofun) hrest)⟩
  | watch s' r next stop _ _ => exact hp.elim

/-- A stopped program can always be brought to its end. -/
theorem exists_run_of_stopped (hn : n ∈ m.fired) (hm : m.stage.Stopped n X c) :
    ∃ es a, Run m es ⟨m.fired, .running (.done a)⟩ ∧ c a := by
  obtain ⟨es, a, hr⟩ : ∃ es a, Run m es ⟨m.fired, .running (.done a)⟩ := by
    obtain ⟨F, stage⟩ := m
    cases stage with
    | running p =>
        rcases hm with hwinds | ⟨r, next, stop, rfl, hstop⟩
        · exact exists_run_of_winds hwinds
        · rcases exists_run_of_winds hstop with ⟨es, a, hrest⟩
          exact ⟨_ :: es, a, .step (.skip hn) hrest⟩
    | waiting r next interrupt =>
        rcases hm with ⟨rfl, hwinds⟩ | ⟨stop, rfl, hstop⟩
        · rcases r.nonempty_answer with ⟨b⟩
          rcases exists_run_of_winds (F := F) (hwinds.2 b) with ⟨es, a, hrest⟩
          exact ⟨_ :: es, a, .step (.answer b nofun) hrest⟩
        · rcases exists_run_of_winds hstop with ⟨es, a, hrest⟩
          exact ⟨_ :: es, a, .step (.interrupt hn) hrest⟩
  exact ⟨es, a, hr, result_of_stopped (hr.stopped hn hm).1 rfl⟩

/-- As long as something is left to wait for, no effect was made. -/
theorem Run.quiet_or_calm (hr : Run m es m') (hm : m.stage.program.CancelsBefore s X c) :
    (∀ r, .made r ∈ es → ¬ X r) ∨ m'.stage.program.Calm := by
  induction hr with
  | refl m => exact .inl (by simp)
  | @step m m₁ m' e es hstep hrest ih =>
      by_cases heffect : ∃ r, e = .made r ∧ X r
      · obtain ⟨r, rfl, hr⟩ := heffect
        right
        refine Program.Calm.reaches ?_ hrest.reaches
        cases hstep with
        | ask => exact hm.calm_of_ask hr
        | watch _ => exact absurd hr hm.1.2.1
      · rcases ih (hstep.reaches.cancelsBefore hm) with hquiet | hcalm
        · left
          intro r hmade
          rcases List.mem_cons.mp hmade with rfl | hlater
          · exact fun hr => heffect ⟨r, rfl, hr⟩
          · exact hquiet r hlater
        · exact .inr hcalm

/-- A program that is suspended has made no effect, and its signal stops it there. -/
theorem Run.suspended {r : Request} {next : r.Answer → Program α}
    {interrupt : Option (Signal × Program α)} {F : Set Nat}
    (hr : Run m es ⟨F, .waiting r next interrupt⟩)
    (hm : m.stage.program.CancelsBefore (some n) X c) (hwaits : r.Waits) :
    (∀ r, .made r ∈ es → ¬ X r) ∧ (Stage.waiting r next interrupt).Stopped n X c := by
  have hleft := hr.reaches.cancelsBefore hm
  have hcalm := hr.quiet_or_calm hm
  rcases interrupt with _ | ⟨s, stop⟩
  · exact absurd hwaits hleft.1.1.not_waits
  · obtain ⟨⟨rfl, _, hstop⟩, _⟩ := hleft
    refine ⟨hcalm.resolve_right ?_, .inr ⟨stop, rfl, hstop⟩⟩
    exact fun hc => hc.1.elim

/-- The signal has fired before the program begins, or fires while it is suspended.  What happens is
split at that moment. -/
inductive Caught (n : Nat) (p : Program α) (F : Set Nat) :
    List Occurrence → List Occurrence → Moment α → Prop where
  | before {es : List Occurrence} {m : Moment α} :
    n ∈ F → Run ⟨F, .running p⟩ es m → Caught n p F [] es m
  | suspended {es es' : List Occurrence} {r : Request} {next : r.Answer → Program α}
      {interrupt : Option (Signal × Program α)} {F' : Set Nat} {m : Moment α} :
    Run ⟨F, .running p⟩ es ⟨F', .waiting r next interrupt⟩ → r.Waits →
      Run ⟨insert n F', .waiting r next interrupt⟩ es' m → Caught n p F es es' m

theorem Caught.stopped {p : Program α} {F : Set Nat} {es' : List Occurrence}
    (h : Caught n p F es es' m) (hp : p.CancelsBefore (some n) X c)
    (hstart : (Stage.running p).Stopped n X c) :
    (∀ r, .made r ∈ es → ¬ X r) ∧ (∀ e ∈ es', Quiet X e) ∧ n ∈ m.fired ∧ m.stage.Stopped n X c := by
  cases h with
  | before hn hr =>
      rcases hr.stopped hn hstart with ⟨hm, hes⟩
      exact ⟨by simp, hes, hr.fired_mono hn, hm⟩
  | @suspended _ _ r next interrupt F' _ hr hwaits hr' =>
      rcases hr.suspended hp hwaits with ⟨hes, hstopped⟩
      have hn : n ∈ insert n F' := Set.mem_insert n F'
      rcases hr'.stopped hn hstopped with ⟨hm, hes'⟩
      exact ⟨hes, hes', hr'.fired_mono hn, hm⟩

end Moment

end PacketRelay
