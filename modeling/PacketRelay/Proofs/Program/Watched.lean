import PacketRelay.Proofs.Program.Asks

/-!
# Watched requests

A signal stops a program only while it waits.  A part whose waiting requests are all watched by its
own signal cannot be dropped in the middle: under a guard it is stopped at the first look at the
signal, or runs to its end.
-/

namespace PacketRelay

/-- Requests that wait for the surroundings.  All others are answered at once. -/
def Request.Waits : Request → Prop
  | .rest | .pause _ | .call .. | .await .. | .awaitEither .. | .acquire _ | .join _ | .listen _ =>
    True
  | _ => False

/-- If a signal stopped the request, then while it waited. -/
def Exchange.Timely : Exchange → Prop
  | .answered .. => True
  | .stopped _ r => r.Waits

namespace Program

variable {α β : Type} {A W : Request → Prop}

/-- The plain requests of a program are of one class, and the watched ones of another. -/
def Within (A W : Request → Prop) : Program α → Prop
  | .done _ => True
  | .ask r next => A r ∧ ∀ a, Within A W (next a)
  | .watch _ r next stop => W r ∧ (∀ a, Within A W (next a)) ∧ Within A W stop

theorem Step.within {p q : Program α} {x : Exchange} (hstep : Step p x q) (hp : Within A W p) :
    Within A W q := by
  cases hstep with
  | ask a => exact hp.2 a
  | watch a => exact hp.2.1 a
  | stop => exact hp.2.2

theorem Reaches.within {p q : Program α} {h : List Exchange} (hreach : Reaches p h q)
    (hp : Within A W p) : Within A W q := by
  induction hreach with
  | refl p => exact hp
  | step hstep _ ih => exact ih (hstep.within hp)

theorem within_request {r : Request} (h : A r) : Within A W (request r) := ⟨h, fun _ => trivial⟩

theorem Within.bind {p : Program α} {f : α → Program β} (hp : Within A W p)
    (hf : ∀ a, Within A W (f a)) : Within A W (p.bind f) := by
  induction p with
  | done a => exact hf a
  | ask r next ih => exact ⟨hp.1, fun a => ih a (hp.2 a)⟩
  | watch s r next stop ih ihs => exact ⟨hp.1, fun a => ih a (hp.2.1 a), ihs hp.2.2⟩

/-- A program without watched requests. -/
def Bare (p : Program α) : Prop := Within (fun _ => True) (fun _ => False) p

end Program

namespace Attempt

open Program

variable {α β : Type} {A W : Request → Prop} {s : Signal}

theorem within_bind {x : Attempt α} {f : α → Attempt β} (hx : Within A W x.run)
    (hf : ∀ a, Within A W (f a).run) : Within A W (x >>= f).run := by
  rw [ExceptT.run_bind, bind_eq]
  refine hx.bind fun r => ?_
  cases r with
  | ok a => exact hf a
  | error e => trivial

theorem within_ofExcept (r : Except RelayError α) : Within A W (ofExcept r).run := trivial

theorem within_lift {p : Program α} (hp : Within A W p) :
    Within A W (ExceptT.lift p : Attempt α).run := by
  rw [ExceptT.run_lift, map_eq_pure_bind, bind_eq]
  exact hp.bind fun _ => trivial

theorem within_request {r : Request} (h : A r) : Within A W (Attempt.request r).run :=
  within_lift (Program.within_request h)

/-- A part that watches whatever waits is not dropped in the middle. -/
theorem Guarded.timely {x : Attempt α} {h : List Exchange} {r : Except RelayError α}
    (hg : Guarded s x h r) (hx : Within (fun r => ¬ r.Waits) (fun _ => True) x.run)
    (hh : ∀ y ∈ h, y.Timely) :
    (∃ n, h = [.stopped n .rest] ∧ r = .error .cancelled) ∨
      ∃ h', h = .answered .rest () :: h' ∧ x.run.Yields h' r := by
  cases hg with
  | fired _ => exact .inl ⟨_, rfl, rfl⟩
  | finished hy => exact .inr ⟨_, rfl, hy⟩
  | @dropped n h' r next _ hreach =>
      have hinstant : ¬ r.Waits := (hreach.within hx).1
      exact absurd (hh (.stopped n r) (by simp)) hinstant

end Attempt

end PacketRelay
