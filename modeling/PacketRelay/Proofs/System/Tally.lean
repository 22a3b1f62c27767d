import Mathlib.Algebra.BigOperators.Group.Finset.Piecewise
import Mathlib.Algebra.Ring.Nat
import PacketRelay.Proofs.System.Basic

/-!
# Sums over runs

What the exchanges of a run amount to is the sum of what its agents contributed.  So two measures
that agree on each agent's own history agree on the run, however the agents were interleaved.
-/

namespace PacketRelay

/-- What an exchange amounts to if only answered requests count. -/
def Exchange.amount {M : Type} [Zero M] (w : Request → M) : Exchange → M
  | .answered r _ => w r
  | .stopped .. => 0

/-- The exchange is an answered request of some kind. -/
def Exchange.answers (P : Request → Bool) : Exchange → Bool
  | .answered r _ => P r
  | .stopped .. => false

theorem Exchange.ite_answers (P : Request → Bool) (x : Exchange) :
    (if x.answers P then 1 else 0) = x.amount fun r => if P r then 1 else 0 := by
  cases x <;> rfl

namespace System

variable {M : Type} [AddCommMonoid M] {w w' : Agent → Exchange → M}

/-- What the exchanges of a run amount to. -/
def tally (w : Agent → Exchange → M) (h : List (Agent × Exchange)) : M :=
  (h.map fun e => w e.1 e.2).sum

@[simp] theorem tally_nil : tally w [] = 0 := rfl

@[simp] theorem tally_append (h h' : List (Agent × Exchange)) :
    tally w (h ++ h') = tally w h + tally w h' := by
  simp [tally]

@[simp] theorem tally_cons (e : Agent × Exchange) (h : List (Agent × Exchange)) :
    tally w (e :: h) = w e.1 e.2 + tally w h := by
  simp [tally]

theorem own_cons (a : Agent) (e : Agent × Exchange) (h : List (Agent × Exchange)) :
    own a (e :: h) = if e.1 = a then e.2 :: own a h else own a h := by
  rw [own, List.filterMap_cons]
  split
  · next hnone =>
    split at hnone
    · cases hnone
    · next hne => rw [if_neg hne, own]
  · next hsome =>
    split at hsome
    · next heq =>
      rw [if_pos heq, Option.some.inj hsome, own]
    · cases hsome

/-- Every exchange is counted with its agent, and with no other. -/
theorem tally_eq_sum (S : Finset Agent) (h : List (Agent × Exchange)) (hS : ∀ e ∈ h, e.1 ∈ S) :
    tally w h = ∑ a ∈ S, ((own a h).map (w a)).sum := by
  induction h with
  | nil => simp [own]
  | cons e h ih =>
      obtain ⟨he, hh⟩ := List.forall_mem_cons.mp hS
      have hown (a : Agent) : ((own a (e :: h)).map (w a)).sum =
          (if e.1 = a then w a e.2 else 0) + ((own a h).map (w a)).sum := by
        rw [own_cons]
        split
        · rw [List.map_cons, List.sum_cons]
        · rw [zero_add]
      rw [tally_cons, ih hh, Finset.sum_congr rfl fun a _ => hown a, Finset.sum_add_distrib,
        Finset.sum_ite_eq S e.1 fun a => w a e.2, if_pos he]

theorem tally_congr {h : List (Agent × Exchange)}
    (hown : ∀ a, ((own a h).map (w a)).sum = ((own a h).map (w' a)).sum) :
    tally w h = tally w' h := by
  have hagents : ∀ e ∈ h, e.1 ∈ (h.map Prod.fst).toFinset := fun e he =>
    List.mem_toFinset.mpr (List.mem_map_of_mem he)
  rw [tally_eq_sum _ h hagents, tally_eq_sum _ h hagents]
  exact Finset.sum_congr rfl fun a _ => hown a

theorem sum_map_ite (P : Exchange → Bool) (l : List Exchange) :
    (l.map fun x => if P x then 1 else 0).sum = l.countP P := by
  induction l with
  | nil => rfl
  | cons x l ih => rw [List.map_cons, List.sum_cons, ih, List.countP_cons, Nat.add_comm]

/-- Exchanges are counted by the sum of ones. -/
theorem countP_eq_tally (P : Exchange → Bool) (h : List (Agent × Exchange)) :
    h.countP (fun e => P e.2) = tally (fun _ x => if P x then 1 else 0) h := by
  have hown : (h.map fun e => if P e.2 then 1 else 0) =
      (h.map Prod.snd).map fun x => if P x then 1 else 0 := by
    rw [List.map_map]
    rfl
  rw [tally, hown, sum_map_ite, List.countP_map]
  rfl

theorem countP_range (P : Nat → Bool) (n : Nat) :
    (List.range n).countP P = ∑ k ∈ Finset.range n, if P k then 1 else 0 := by
  induction n with
  | zero => rfl
  | succ n ih =>
      rw [List.range_succ, List.countP_append, List.countP_singleton, ih, Finset.sum_range_succ]

end System

end PacketRelay
