import PacketRelay.Proofs.Program.Cancelling
import PacketRelay.Proofs.Program.Unfired

/-!
# Parts that hand their signal on

Such a part does nothing with its signal but to guard its steps by it.
-/

namespace PacketRelay.Attempt

open Program

/-- Guarded steps one after another, for every signal. -/
inductive Staged : {α : Type} → (Signal → Attempt α) → Prop where
  | calm {α : Type} {x : Attempt α} : x.run.Calm → Staged fun _ => x
  | guard {α : Type} {x : Attempt α} : x.run.Bare → Staged fun s => guard s x
  | step {α : Type} {policy : RetryPolicy} {x : Attempt α} :
    x.run.Bare → Staged fun s => policy.step s x
  | bind {α β : Type} {x : Signal → Attempt α} {f : Signal → α → Attempt β} :
    Staged x → (∀ a, Staged fun s => f s a) → Staged fun s => x s >>= f s

namespace Staged

variable {α : Type} {x : Signal → Attempt α} {n : Nat} {s s' : Signal}

theorem known (r : Except RelayError α) : Staged fun _ => ofExcept r := .calm trivial

theorem cancels {X : Request → Prop} (hx : Staged x) : (x s).run.Cancels s X IsCancelled := by
  induction hx with
  | calm hcalm => exact hcalm.cancels
  | guard hbare => exact cancels_guard hbare
  | step hbare => exact RetryPolicy.cancels_step hbare
  | bind _ _ ihx ihf => exact cancels_bind ihx ihf

theorem alike (hx : Staged x) (hs : s.Alike n s') : Alike n (x s).run (x s').run := by
  induction hx with
  | calm _ => exact .refl _
  | guard _ => exact alike_guard hs (.refl _)
  | step _ => exact RetryPolicy.alike_step hs
  | bind _ _ ihx ihf => exact alike_bind ihx ihf

end Staged

end PacketRelay.Attempt
