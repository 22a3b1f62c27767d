import PacketRelay.Proofs.Program.Timeline
import PacketRelay.Proofs.Retry.Attempts

/-!
# Programs that heed a signal

A program that heeds a signal makes only requests of a class without watching for it.  Once the
signal has fired, it makes no others.
-/

namespace PacketRelay

namespace Program

variable {α β : Type} {s : Signal} {U : Request → Prop}

/-- Requests outside the class are watched by the signal. -/
def Heeds (s : Signal) (U : Request → Prop) : Program α → Prop
  | .done _ => True
  | .ask r next => U r ∧ ∀ a, Heeds s U (next a)
  | .watch s' r next stop => (s' = s ∨ U r) ∧ (∀ a, Heeds s U (next a)) ∧ Heeds s U stop

/-- A guard by the signal makes the program heed it. -/
def Sheltered (s : Signal) (U : Request → Prop) (p : Program α) : Prop := p.Bare ∨ p.Heeds s U

theorem Heeds.mono {U' : Request → Prop} {p : Program α} (hp : p.Heeds s U)
    (hU : ∀ r, U r → U' r) : p.Heeds s U' := by
  induction p with
  | done a => trivial
  | ask r next ih => exact ⟨hU r hp.1, fun a => ih a (hp.2 a)⟩
  | watch s' r next stop ih ihs =>
      exact ⟨hp.1.imp_right (hU r), fun a => ih a (hp.2.1 a), ihs hp.2.2⟩

theorem heeds_request {r : Request} (hr : U r) : Heeds s U (request r) := ⟨hr, fun _ => trivial⟩

theorem Heeds.bind {p : Program α} {f : α → Program β} (hp : p.Heeds s U)
    (hf : ∀ a, (f a).Heeds s U) : (p.bind f).Heeds s U := by
  induction p with
  | done a => exact hf a
  | ask r next ih => exact ⟨hp.1, fun a => ih a (hp.2 a)⟩
  | watch s' r next stop ih ihs => exact ⟨hp.1, fun a => ih a (hp.2.1 a), ihs hp.2.2⟩

theorem Sheltered.watchAll {p stop : Program α} (hp : p.Sheltered s U) (hstop : stop.Heeds s U) :
    (Attempt.watchAll s stop p).Heeds s U := by
  induction p with
  | done a => trivial
  | ask r next ih =>
      refine ⟨.inl rfl, fun a => ih a ?_, hstop⟩
      rcases hp with hbare | hheeds
      · exact .inl (hbare.2 a)
      · exact .inr (hheeds.2 a)
  | watch s' r next stop' ih _ =>
      rcases hp with hbare | hheeds
      · exact hbare.1.elim
      · exact ⟨hheeds.1, fun a => ih a (.inr (hheeds.2.1 a)), hheeds.2.2⟩

end Program

namespace Attempt

open Program

variable {α β : Type} {s : Signal} {U : Request → Prop}

theorem heeds_bind {x : Attempt α} {f : α → Attempt β} (hx : x.run.Heeds s U)
    (hf : ∀ a, (f a).run.Heeds s U) : (x >>= f).run.Heeds s U := by
  rw [ExceptT.run_bind, bind_eq]
  refine hx.bind fun r => ?_
  cases r with
  | ok a => exact hf a
  | error e => trivial

theorem heeds_lift {p : Program α} (hp : p.Heeds s U) :
    (ExceptT.lift p : Attempt α).run.Heeds s U := by
  rw [ExceptT.run_lift, map_eq_pure_bind, bind_eq]
  exact hp.bind fun _ => trivial

theorem heeds_request {r : Request} (hr : U r) : (Attempt.request r).run.Heeds s U :=
  heeds_lift (Program.heeds_request hr)

theorem heeds_guard {x : Attempt α} (hx : x.run.Sheltered s U) : (guard s x).run.Heeds s U :=
  ⟨.inl rfl, fun _ => hx.watchAll trivial, trivial⟩

end Attempt

namespace RetryPolicy

open Program

variable {α : Type} {p : RetryPolicy} {scope : RetryScope} {s : Signal} {U : Request → Prop}

theorem heeds_attemptsFrom {operation : Nat → Attempt α}
    (hloop : ∀ r, scope.LoopRequest r → U r) (hop : ∀ n, (operation n).run.Sheltered s U)
    (left n : Nat) (history : List String) :
    (p.attemptsFrom scope s operation left n history).Heeds s U := by
  rw [attemptsFrom_eq]
  refine (Program.heeds_request (hloop (.attempting n) trivial)).bind fun _ => ?_
  refine Heeds.bind (Attempt.heeds_guard (hop n)) fun r => ?_
  cases r with
  | ok a => trivial
  | error e =>
      dsimp only
      split
      · trivial
      · cases left with
        | zero => trivial
        | succ left =>
            have hannounce : (scope.announce n e).Heeds s U := by
              unfold RetryScope.announce
              split
              · next hscope => exact Program.heeds_request (hloop (.retrying n e) hscope)
              · trivial
            have hpause : (Attempt.request (.pause p.delay.millis)).run.Sheltered s U :=
              .inl (Attempt.within_request trivial)
            exact hannounce.bind fun _ => Attempt.heeds_bind (Attempt.heeds_guard hpause)
              fun _ => heeds_attemptsFrom hloop hop left _ _

theorem heeds_step {x : Attempt α} (hloop : ∀ r, RetryScope.step.LoopRequest r → U r)
    (hx : x.run.Bare) : (p.step s x).run.Heeds s U :=
  heeds_attemptsFrom hloop (fun _ => .inl hx) _ _ _

end RetryPolicy

namespace Program

variable {α : Type} {s : Signal} {U : Request → Prop}

theorem Step.heeds {p q : Program α} {x : Exchange} (hstep : Step p x q) (hp : p.Heeds s U) :
    q.Heeds s U := by
  cases hstep with
  | ask a => exact hp.2 a
  | watch a => exact hp.2.1 a
  | stop => exact hp.2.2

theorem Reaches.heeds {p q : Program α} {h : List Exchange} (hreach : Reaches p h q)
    (hp : p.Heeds s U) : q.Heeds s U := by
  induction hreach with
  | refl p => exact hp
  | step hstep _ ih => exact ih (hstep.heeds hp)

end Program

namespace Moment

variable {α : Type} {n : Nat} {U : Request → Prop} {m m' : Moment α}

theorem Step.made_of_fired {r : Request} (hstep : Step m (.made r) m')
    (hm : m.stage.program.Heeds (some n) U) (hn : n ∈ m.fired) : U r := by
  cases hstep with
  | ask => exact hm.1
  | watch hfired =>
      rcases hm.1 with rfl | hr
      · exact absurd hn hfired
      · exact hr

/-- Once the signal has fired, only requests of the class are made. -/
theorem Run.made_of_fired {es : List Occurrence} (hr : Run m es m')
    (hm : m.stage.program.Heeds (some n) U) (hn : n ∈ m.fired) : ∀ r, .made r ∈ es → U r := by
  induction hr with
  | refl m => simp
  | step hstep _ ih =>
      intro r hmade
      rcases List.mem_cons.mp hmade with rfl | hlater
      · exact hstep.made_of_fired hm hn
      · exact ih (hstep.reaches.heeds hm) (hstep.fired_mono hn) r hlater

/-- Whenever the signal fires, only requests of the class are made from then on. -/
theorem Run.made_after_fired {es es' : List Occurrence} (hr : Run m (es ++ .fired n :: es') m')
    (hm : m.stage.program.Heeds (some n) U) : ∀ r, .made r ∈ es' → U r := by
  rcases run_append_iff.mp hr with ⟨m₁, hbefore, hafter⟩
  rcases hafter with _ | ⟨hstep, hrest⟩
  exact hrest.made_of_fired (hstep.reaches.heeds (hbefore.reaches.heeds hm)) hstep.fired_mem

end Moment

end PacketRelay
