import PacketRelay.Proofs.Retry.Attempts

/-!
# What a program can do

Requests may be answered so that a program ends with a given result.  What its parts can do unstopped
and by requests of a class, the whole can do.
-/

namespace PacketRelay

namespace Program

variable {α β : Type} {R : Request → Prop}

/-- The program can end with this result, unstopped and by requests of the class. -/
def Passes (R : Request → Prop) (p : Program α) (a : α) : Prop :=
  ∃ h, p.Yields h a ∧ ∀ x ∈ h, x.IsAnswer ∧ R x.request

theorem passes_done (a : α) : Passes R (done a) a := ⟨[], .refl _, by simp⟩

theorem passes_request {r : Request} (hr : R r) (a : r.Answer) : Passes R (request r) a := by
  refine ⟨[.answered r a], yields_request_iff.mpr rfl, fun x hx => ?_⟩
  rw [List.mem_singleton.mp hx]
  exact ⟨trivial, hr⟩

theorem Passes.bind {p : Program α} {f : α → Program β} {a : α} {b : β} (hp : Passes R p a)
    (hf : Passes R (f a) b) : Passes R (p.bind f) b := by
  obtain ⟨h₁, hy₁, hh₁⟩ := hp
  obtain ⟨h₂, hy₂, hh₂⟩ := hf
  refine ⟨h₁ ++ h₂, yields_bind_iff.mpr ⟨h₁, a, h₂, rfl, hy₁, hy₂⟩, fun x hx => ?_⟩
  obtain hx | hx := List.mem_append.mp hx
  · exact hh₁ x hx
  · exact hh₂ x hx

end Program

namespace Attempt

open Program

variable {α β : Type} {R : Request → Prop}

theorem passes_pure (a : α) : Passes R (pure a : Attempt α).run (.ok a) := passes_done _

theorem passes_bind {x : Attempt α} {f : α → Attempt β} {a : α} {r : Except RelayError β}
    (hx : Passes R x.run (.ok a)) (hf : Passes R (f a).run r) : Passes R (x >>= f).run r := by
  rw [ExceptT.run_bind, bind_eq]
  exact hx.bind hf

theorem passes_lift {p : Program α} {a : α} (hp : Passes R p a) :
    Passes R (ExceptT.lift p : Attempt α).run (.ok a) := by
  obtain ⟨h, hy, hh⟩ := hp
  exact ⟨h, yields_lift_iff.mpr ⟨a, hy, rfl⟩, hh⟩

theorem passes_request {r : Request} (hr : R r) (a : r.Answer) :
    Passes R (Attempt.request r).run (.ok a) := passes_lift (Program.passes_request hr a)

theorem passes_demand {p : Program (Except RelayError α)} {r : Except RelayError α}
    (hp : Passes R p r) : Passes R (demand p).run r := hp

theorem passes_guard {s : Signal} {x : Attempt α} {r : Except RelayError α} (hrest : R .rest)
    (hx : Passes R x.run r) : Passes R (guard s x).run r := by
  obtain ⟨h, hy, hh⟩ := hx
  refine ⟨_, yields_guard_of hy fun y hy => (hh y hy).1, List.forall_mem_cons.mpr ⟨?_, hh⟩⟩
  exact ⟨trivial, hrest⟩

end Attempt

namespace RetryPolicy

open Program

variable {α : Type} {R : Request → Prop} {p : RetryPolicy} {s : Signal}

/-- What an operation can do, the first attempt at it can do. -/
theorem passes_step {op : Attempt α} {a : α} (hR : ∀ r, RetryScope.step.LoopRequest r → R r)
    (hop : Passes R op.run (.ok a)) : Passes R (p.step s op).run (.ok a) := by
  have hbody : Passes R (p.attemptsFrom .step s (fun _ => op) (p.attempts - 1) 1 []) (.ok a) := by
    rw [attemptsFrom_eq]
    refine (Program.passes_request (hR (.attempting 1) trivial) ()).bind ?_
    exact (Attempt.passes_guard (hR .rest trivial) hop).bind (passes_done _)
  exact hbody

end RetryPolicy

end PacketRelay
