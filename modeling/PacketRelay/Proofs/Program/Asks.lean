import PacketRelay.Proofs.Program.Guard

/-!
# Which requests a program makes

A class of requests that holds all requests of a program, in every branch, holds all requests of its
histories.  Everything outside the class is left alone.
-/

namespace PacketRelay

namespace Program

variable {α β : Type} {R : Request → Prop}

/-- All requests in the tree of a program are of a class. -/
def Asks (R : Request → Prop) : Program α → Prop
  | .done _ => True
  | .ask r next => R r ∧ ∀ a, Asks R (next a)
  | .watch _ r next stop => R r ∧ (∀ a, Asks R (next a)) ∧ Asks R stop

theorem Asks.mono {R' : Request → Prop} {p : Program α} (hp : Asks R p) (hR : ∀ r, R r → R' r) :
    Asks R' p := by
  induction p with
  | done a => trivial
  | ask r next ih => exact ⟨hR r hp.1, fun a => ih a (hp.2 a)⟩
  | watch s r next stop ih ihs => exact ⟨hR r hp.1, fun a => ih a (hp.2.1 a), ihs hp.2.2⟩

theorem Step.asks {p q : Program α} {x : Exchange} (hstep : Step p x q) (hp : Asks R p) :
    R x.request ∧ Asks R q := by
  cases hstep with
  | ask a => exact ⟨hp.1, hp.2 a⟩
  | watch a => exact ⟨hp.1, hp.2.1 a⟩
  | stop => exact ⟨hp.1, hp.2.2⟩

theorem Reaches.asks {p q : Program α} {h : List Exchange} (hreach : Reaches p h q)
    (hp : Asks R p) : (∀ x ∈ h, R x.request) ∧ Asks R q := by
  induction hreach with
  | refl p => exact ⟨by simp, hp⟩
  | step hstep _ ih =>
      obtain ⟨hx, hq⟩ := hstep.asks hp
      obtain ⟨hh, hr⟩ := ih hq
      exact ⟨List.forall_mem_cons.mpr ⟨hx, hh⟩, hr⟩

theorem Yields.asks {p : Program α} {h : List Exchange} {a : α} (hy : p.Yields h a)
    (hp : Asks R p) : ∀ x ∈ h, R x.request := (Reaches.asks hy hp).1

theorem asks_request {r : Request} (h : R r) : Asks R (request r) := ⟨h, fun _ => trivial⟩

theorem Asks.bind {p : Program α} {f : α → Program β} (hp : Asks R p) (hf : ∀ a, Asks R (f a)) :
    Asks R (p.bind f) := by
  induction p with
  | done a => exact hf a
  | ask r next ih => exact ⟨hp.1, fun a => ih a (hp.2 a)⟩
  | watch s r next stop ih ihs => exact ⟨hp.1, fun a => ih a (hp.2.1 a), ihs hp.2.2⟩

end Program

namespace Attempt

open Program

variable {α β : Type} {R : Request → Prop}

theorem asks_pure (a : α) : Asks R (pure a : Attempt α).run := trivial

theorem asks_throw (e : RelayError) : Asks R (throw e : Attempt α).run := trivial

theorem asks_ofExcept (r : Except RelayError α) : Asks R (ofExcept r).run := trivial

theorem asks_bind {x : Attempt α} {f : α → Attempt β} (hx : Asks R x.run)
    (hf : ∀ a, Asks R (f a).run) : Asks R (x >>= f).run := by
  rw [ExceptT.run_bind, bind_eq]
  refine hx.bind fun r => ?_
  cases r with
  | ok a => exact hf a
  | error e => trivial

theorem asks_lift {p : Program α} (hp : Asks R p) : Asks R (ExceptT.lift p : Attempt α).run := by
  rw [ExceptT.run_lift, map_eq_pure_bind, bind_eq]
  exact hp.bind fun _ => trivial

theorem asks_request {r : Request} (h : R r) : Asks R (Attempt.request r).run :=
  asks_lift (Program.asks_request h)

theorem asks_outcome {x : Attempt α} (hx : Asks R x.run) : Asks R (outcome x).run := asks_lift hx

theorem asks_watchAll {s : Signal} {p stop : Program α} (hp : Asks R p) (hs : Asks R stop) :
    Asks R (watchAll s stop p) := by
  induction p with
  | done a => trivial
  | ask r next ih => exact ⟨hp.1, fun a => ih a (hp.2 a), hs⟩
  | watch s' r next stop' ih _ => exact ⟨hp.1, fun a => ih a (hp.2.1 a), hp.2.2⟩

theorem asks_guard {s : Signal} {x : Attempt α} (hrest : R .rest) (hx : Asks R x.run) :
    Asks R (guard s x).run :=
  ⟨hrest, fun _ => asks_watchAll hx trivial, trivial⟩

end Attempt

end PacketRelay
