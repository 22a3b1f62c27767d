import Mathlib.Data.List.Forall2
import PacketRelay.Proofs.Program.Timeline
import PacketRelay.Proofs.Retry.Attempts

/-!
# Signals that never fire

A program that is watched by a signal and one that is not differ only in what happens once the
signal has fired.  Until then the same happens to both, except that a job that they leave may be
handed the one signal or the other.
-/

namespace PacketRelay

/-- A signal that never fires if signal `n` does not. -/
def Signal.Silent (n : Nat) (s : Signal) : Prop := s = none ∨ s = some n

/-- Signals that cannot be told apart unless signal `n` fires. -/
def Signal.Alike (n : Nat) (s s' : Signal) : Prop := s = s' ∨ s.Silent n ∧ s'.Silent n

namespace Signal

variable {n : Nat} {s s' : Signal} {F : Set Nat}

theorem alike_none : Signal.Alike n (some n) none := .inr ⟨.inr rfl, .inl rfl⟩

theorem Alike.refl (s : Signal) : s.Alike n s := .inl rfl

theorem Alike.symm (h : s.Alike n s') : s'.Alike n s := h.imp Eq.symm And.symm

theorem Silent.not_firedIn (hs : s.Silent n) (hn : n ∉ F) : ¬ s.FiredIn F := by
  rcases hs with rfl | rfl
  · exact not_false
  · exact hn

theorem Alike.firedIn (h : s.Alike n s') (hn : n ∉ F) (hs' : s'.FiredIn F) : s.FiredIn F := by
  rcases h with rfl | ⟨_, hsilent⟩
  · exact hs'
  · exact absurd hs' (hsilent.not_firedIn hn)

end Signal

/-- The requests differ at most in the signal of a job, and answers to the one stand for answers to
the other. -/
inductive Request.Alike (n : Nat) : (r r' : Request) → (r.Answer → r'.Answer) → Prop where
  | same (r : Request) : Alike n r r id
  | confirm {p : Provider} {hash : String} {s s' : Signal} :
    s.Alike n s' → Alike n (.spawn p (.confirm hash s)) (.spawn p (.confirm hash s')) id

/-- The programs differ at most in signals that cannot be told apart. -/
inductive Program.Alike {α : Type} (n : Nat) : Program α → Program α → Prop where
  | done (a : α) : Alike n (.done a) (.done a)
  | ask {r r' : Request} {f : r.Answer → r'.Answer} {next : r.Answer → Program α}
      {next' : r'.Answer → Program α} :
    r.Alike n r' f → (∀ a, Alike n (next a) (next' (f a))) → Alike n (.ask r next) (.ask r' next')
  | watch {s s' : Signal} {r r' : Request} {f : r.Answer → r'.Answer}
      {next : r.Answer → Program α} {next' : r'.Answer → Program α} {stop stop' : Program α} :
    s.Alike n s' → r.Alike n r' f → (∀ a, Alike n (next a) (next' (f a))) → Alike n stop stop' →
      Alike n (.watch s r next stop) (.watch s' r' next' stop')

namespace Program

variable {α β : Type} {n : Nat} {s s' : Signal}

theorem Alike.refl (p : Program α) : Alike n p p := by
  induction p with
  | done a => exact .done a
  | ask r next ih => exact .ask (.same r) ih
  | watch s r next stop ih ihs => exact .watch (.refl s) (.same r) ih ihs

theorem Alike.symm {p q : Program α} (hp : Alike n p q) : Alike n q p := by
  induction hp with
  | done a => exact .done a
  | ask hr _ ih =>
      cases hr with
      | same => exact .ask (.same _) ih
      | confirm hs => exact .ask (.confirm hs.symm) ih
  | watch hs hr _ _ ih ihs =>
      cases hr with
      | same => exact .watch hs.symm (.same _) ih ihs
      | confirm hs' => exact .watch hs.symm (.confirm hs'.symm) ih ihs

theorem alike_spawn {p : Provider} {hash : String} (hs : s.Alike n s') :
    Alike n (request (.spawn p (.confirm hash s))) (request (.spawn p (.confirm hash s'))) :=
  .ask (.confirm hs) .done

theorem Alike.bind {p q : Program α} {f g : α → Program β} (hp : Alike n p q)
    (hf : ∀ a, Alike n (f a) (g a)) : Alike n (p.bind f) (q.bind g) := by
  induction hp with
  | done a => exact hf a
  | ask hr _ ih => exact .ask hr ih
  | watch hs hr _ _ ih ihs => exact .watch hs hr ih ihs

theorem Alike.watchAll {p q stop : Program α} (hs : s.Alike n s') (hp : Alike n p q) :
    Alike n (Attempt.watchAll s stop p) (Attempt.watchAll s' stop q) := by
  induction hp with
  | done a => exact .done a
  | ask hr _ ih => exact .watch hs hr ih (.refl stop)
  | watch hs' hr _ hstop ih _ => exact .watch hs' hr ih hstop

end Program

namespace Attempt

open Program

variable {α β : Type} {n : Nat} {s s' : Signal}

theorem alike_bind {x y : Attempt α} {f g : α → Attempt β} (hx : Alike n x.run y.run)
    (hf : ∀ a, Alike n (f a).run (g a).run) : Alike n (x >>= f).run (y >>= g).run := by
  rw [ExceptT.run_bind, ExceptT.run_bind, bind_eq, bind_eq]
  refine hx.bind fun r => ?_
  cases r with
  | ok a => exact hf a
  | error e => exact .refl _

theorem alike_lift {p q : Program α} (hp : Alike n p q) :
    Alike n (ExceptT.lift p : Attempt α).run (ExceptT.lift q : Attempt α).run := by
  rw [ExceptT.run_lift, ExceptT.run_lift, map_eq_pure_bind, map_eq_pure_bind, bind_eq, bind_eq]
  exact hp.bind fun _ => .refl _

theorem alike_guard {x y : Attempt α} (hs : s.Alike n s') (hx : Alike n x.run y.run) :
    Alike n (guard s x).run (guard s' y).run :=
  .watch hs (.same _) (fun _ => hx.watchAll hs) (.refl _)

end Attempt

namespace RetryPolicy

open Program

variable {α : Type} {p : RetryPolicy} {scope : RetryScope} {n : Nat} {s s' : Signal}

theorem alike_attemptsFrom {f g : Nat → Attempt α} (hs : s.Alike n s')
    (hf : ∀ k, Alike n (f k).run (g k).run) (left k : Nat) (history : List String) :
    Alike n (p.attemptsFrom scope s f left k history)
      (p.attemptsFrom scope s' g left k history) := by
  rw [attemptsFrom_eq, attemptsFrom_eq]
  refine (Alike.refl _).bind fun _ => (Attempt.alike_guard hs (hf k)).bind fun r => ?_
  cases r with
  | ok a => exact .refl _
  | error e =>
      dsimp only
      split
      · exact .refl _
      · cases left with
        | zero => exact .refl _
        | succ left =>
            refine (Alike.refl _).bind fun _ => Attempt.alike_bind ?_ fun _ => ?_
            · exact Attempt.alike_guard hs (.refl _)
            · exact alike_attemptsFrom hs hf left _ _

theorem alike_step {x : Attempt α} (hs : s.Alike n s') :
    Alike n (p.step s x).run (p.step s' x).run :=
  alike_attemptsFrom hs (fun _ => .refl _) _ _ _

end RetryPolicy

/-- What happens differs at most in the signal of a job. -/
inductive Occurrence.Alike (n : Nat) : Occurrence → Occurrence → Prop where
  | made {r r' : Request} {f : r.Answer → r'.Answer} :
    r.Alike n r' f → Alike n (.made r) (.made r')
  | answered {r r' : Request} {f : r.Answer → r'.Answer} (a : r.Answer) :
    r.Alike n r' f → Alike n (.answered r a) (.answered r' (f a))
  | stopped {r r' : Request} {f : r.Answer → r'.Answer} (k : Nat) :
    r.Alike n r' f → Alike n (.stopped k r) (.stopped k r')
  | fired (k : Nat) : Alike n (.fired k) (.fired k)

inductive Stage.Alike {α : Type} (n : Nat) : Stage α → Stage α → Prop where
  | running {p q : Program α} : p.Alike n q → Alike n (.running p) (.running q)
  | asked {r r' : Request} {f : r.Answer → r'.Answer} {next : r.Answer → Program α}
      {next' : r'.Answer → Program α} :
    r.Alike n r' f → (∀ a, (next a).Alike n (next' (f a))) →
      Alike n (.waiting r next none) (.waiting r' next' none)
  | watched {s s' : Signal} {r r' : Request} {f : r.Answer → r'.Answer}
      {next : r.Answer → Program α} {next' : r'.Answer → Program α} {stop stop' : Program α} :
    s.Alike n s' → r.Alike n r' f → (∀ a, (next a).Alike n (next' (f a))) → stop.Alike n stop' →
      Alike n (.waiting r next (some (s, stop))) (.waiting r' next' (some (s', stop')))

theorem Stage.Alike.done_iff {α : Type} {n : Nat} {stage stage' : Stage α}
    (h : stage.Alike n stage') (a : α) :
    stage = .running (.done a) ↔ stage' = .running (.done a) := by
  cases h with
  | running hp =>
      cases hp with
      | done b => rfl
      | _ => exact ⟨nofun, nofun⟩
  | _ => exact ⟨nofun, nofun⟩

namespace Moment

variable {α : Type} {n : Nat}

/-- What happens to a program happens to one that is like it, as long as the signal does not
fire. -/
theorem Step.alike {m m' : Moment α} {e : Occurrence} {stage : Stage α} (hstep : Step m e m')
    (hn : n ∉ m.fired) (halike : m.stage.Alike n stage) :
    ∃ e' stage', Occurrence.Alike n e e' ∧ Step ⟨m.fired, stage⟩ e' ⟨m'.fired, stage'⟩ ∧
      m'.stage.Alike n stage' := by
  cases hstep with
  | ask =>
      rcases halike with ⟨_ | ⟨hr, hnext⟩⟩
      exact ⟨_, _, .made hr, .ask, .asked hr hnext⟩
  | watch hlive =>
      rcases halike with ⟨_ | _ | ⟨hs, hr, hnext, hstop⟩⟩
      have hlive' := fun hfired => hlive (hs.firedIn hn hfired)
      exact ⟨_, _, .made hr, .watch hlive', .watched hs hr hnext hstop⟩
  | @skip F k r next stop hfired =>
      rcases halike with ⟨_ | _ | ⟨hs, hr, _, hstop⟩⟩
      rcases hs with rfl | ⟨hsilent, _⟩
      · exact ⟨_, _, .stopped k hr, .skip hfired, .running hstop⟩
      · exact absurd hfired (hsilent.not_firedIn hn)
  | answer a hlive =>
      rcases halike with _ | ⟨hr, hnext⟩ | ⟨hs, hr, hnext, _⟩
      · exact ⟨_, _, .answered a hr, .answer _ nofun, .running (hnext a)⟩
      · refine ⟨_, _, .answered a hr, .answer _ ?_, .running (hnext a)⟩
        rintro s stop ⟨⟩ hfired
        exact hlive _ _ rfl (hs.firedIn hn hfired)
  | @interrupt F k r next stop hfired =>
      rcases halike with _ | _ | ⟨hs, hr, _, hstop⟩
      rcases hs with rfl | ⟨hsilent, _⟩
      · exact ⟨_, _, .stopped k hr, .interrupt hfired, .running hstop⟩
      · exact absurd hfired (hsilent.not_firedIn hn)
  | fire k => exact ⟨_, stage, .fired k, .fire k, halike⟩

theorem Run.alike {m m' : Moment α} {es : List Occurrence} {stage : Stage α} (hr : Run m es m')
    (hn : n ∉ m'.fired) (halike : m.stage.Alike n stage) :
    ∃ es' stage', List.Forall₂ (Occurrence.Alike n) es es' ∧
      Run ⟨m.fired, stage⟩ es' ⟨m'.fired, stage'⟩ ∧ m'.stage.Alike n stage' := by
  induction hr generalizing stage with
  | refl m => exact ⟨[], stage, .nil, .refl _, halike⟩
  | step hstep hrest ih =>
      have hbefore := fun hfired => hn (hrest.fired_mono (hstep.fired_mono hfired))
      rcases hstep.alike hbefore halike with ⟨e', stage₁, he, hstep', halike'⟩
      rcases ih hn halike' with ⟨es', stage', hes, hrest', hend⟩
      exact ⟨e' :: es', stage', .cons he hes, .step hstep' hrest', hend⟩

/-- Unless the signal fires, the second program does all that the first one does. -/
def Tracks (n : Nat) (p q : Program α) : Prop :=
  ∀ (F : Set Nat) (es : List Occurrence) (m : Moment α), n ∉ m.fired →
    Run ⟨F, .running p⟩ es m →
      ∃ es' stage, List.Forall₂ (Occurrence.Alike n) es es' ∧
        Run ⟨F, .running q⟩ es' ⟨m.fired, stage⟩ ∧
        ∀ a, m.stage = .running (.done a) ↔ stage = .running (.done a)

def SameUnless (n : Nat) (p q : Program α) : Prop := Tracks n p q ∧ Tracks n q p

theorem sameUnless_of_alike {p q : Program α} (h : p.Alike n q) : SameUnless n p q := by
  have htracks {p q : Program α} (h : p.Alike n q) : Tracks n p q := by
    intro F es m hn hr
    rcases hr.alike hn (.running h) with ⟨es', stage, hes, hr', hend⟩
    exact ⟨es', stage, hes, hr', hend.done_iff⟩
  exact ⟨htracks h, htracks h.symm⟩

end Moment

end PacketRelay
