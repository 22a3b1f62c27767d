import Mathlib.Logic.Function.Basic
import PacketRelay.Proofs.Program.Inversion
import PacketRelay.Submission

/-!
# Systems of calls and jobs

Calls and the jobs that they leave run side by side, one exchange at a time and in any order.  A key
has one lock with its cache, which only the agent that took it gives back.  Nodes, clocks and
signals answer as they like.
-/

namespace PacketRelay

/-- Who makes an exchange. -/
inductive Agent where
  | call (i : Nat)
  | job (n : Nat)
  deriving DecidableEq

structure System (ρ : Type) where
  caches : KeyId → SequenceState
  holders : KeyId → Option Agent
  calls : Nat → Program ρ
  jobs : List (Program (Option Confirmation))

namespace System

variable {ρ : Type}

/-- Calls that have not begun, with the caches that they find. -/
def start (caches : KeyId → SequenceState) (calls : Nat → Program ρ) : System ρ :=
  ⟨caches, fun _ => none, calls, []⟩

/-- Whether the system lets an agent have an answer. -/
def Allows (σ : System ρ) (a : Agent) : Exchange → Prop
  | .answered (.acquire p) st => σ.holders p.key = none ∧ st = σ.caches p.key
  | .answered (.release p _) _ => σ.holders p.key = some a
  | .answered (.spawn _ _) n => n = σ.jobs.length
  | .answered (.join n) c => σ.jobs[n]? = some (.done (some c))
  | _ => True

/-- What an exchange of an agent does to the system. -/
def after (σ : System ρ) (a : Agent) : Exchange → System ρ
  | .answered (.acquire p) _ =>
    { σ with holders := Function.update σ.holders p.key (some a) }
  | .answered (.release p st) _ =>
    { σ with
      caches := Function.update σ.caches p.key st
      holders := Function.update σ.holders p.key none }
  | .answered (.spawn p j) _ => { σ with jobs := σ.jobs ++ [p.runJob j] }
  | _ => σ

inductive Step : System ρ → Agent → Exchange → System ρ → Prop where
  | call {σ : System ρ} {i : Nat} {x : Exchange} {q : Program ρ} :
    (σ.calls i).Step x q → σ.Allows (.call i) x →
      Step σ (.call i) x { σ.after (.call i) x with calls := Function.update σ.calls i q }
  | job {σ : System ρ} {n : Nat} {x : Exchange} {j q : Program (Option Confirmation)} :
    σ.jobs[n]? = some j → j.Step x q → σ.Allows (.job n) x →
      Step σ (.job n) x { σ.after (.job n) x with jobs := (σ.after (.job n) x).jobs.set n q }

inductive Run : System ρ → List (Agent × Exchange) → System ρ → Prop where
  | nil (σ : System ρ) : Run σ [] σ
  | snoc {σ τ τ' : System ρ} {h : List (Agent × Exchange)} {a : Agent} {x : Exchange} :
    Run σ h τ → Step τ a x τ' → Run σ (h ++ [(a, x)]) τ'

/-- The exchanges of one agent. -/
def own (a : Agent) (h : List (Agent × Exchange)) : List Exchange :=
  h.filterMap fun e => if e.1 = a then some e.2 else none

@[simp] theorem own_append (a : Agent) (h h' : List (Agent × Exchange)) :
    own a (h ++ h') = own a h ++ own a h' := List.filterMap_append

@[simp] theorem own_singleton_self (a : Agent) (x : Exchange) : own a [(a, x)] = [x] := by
  simp [own]

theorem mem_own {a : Agent} {x : Exchange} {h : List (Agent × Exchange)} :
    x ∈ own a h ↔ (a, x) ∈ h := by
  rw [own, List.mem_filterMap]
  constructor
  · rintro ⟨⟨b, y⟩, hmem, hy⟩
    split at hy
    · next hb =>
      obtain rfl := Option.some.inj hy
      obtain rfl : b = a := hb
      exact hmem
    · cases hy
  · intro hmem
    exact ⟨(a, x), hmem, by simp⟩

theorem own_singleton_ne {a b : Agent} (h : b ≠ a) (x : Exchange) : own a [(b, x)] = [] := by
  simp [own, h]

@[simp] theorem calls_after (σ : System ρ) (a : Agent) (x : Exchange) :
    (σ.after a x).calls = σ.calls := by
  unfold after
  split <;> rfl

theorem Run.append {σ τ υ : System ρ} {h h' : List (Agent × Exchange)} (hr : Run σ h τ)
    (hr' : Run τ h' υ) : Run σ (h ++ h') υ := by
  induction hr' with
  | nil => simpa using hr
  | snoc _ hstep ih =>
      rw [← List.append_assoc]
      exact ih.snoc hstep

theorem Step.calls {σ τ : System ρ} {a : Agent} {x : Exchange} (hstep : Step σ a x τ) (i : Nat) :
    (a = .call i ∧ (σ.calls i).Step x (τ.calls i)) ∨ (a ≠ .call i ∧ τ.calls i = σ.calls i) := by
  cases hstep with
  | @call j _ q hq _ =>
      by_cases hij : j = i
      · subst hij
        exact .inl ⟨rfl, by simpa using hq⟩
      · exact .inr ⟨by simpa using hij, by simp [Function.update_of_ne (Ne.symm hij)]⟩
  | job _ _ _ => exact .inr ⟨by simp, by simp⟩

/-- What an agent did is a history of its own program. -/
theorem Run.reaches {σ τ : System ρ} {h : List (Agent × Exchange)} (hr : Run σ h τ) (i : Nat) :
    (σ.calls i).Reaches (own (.call i) h) (τ.calls i) := by
  induction hr with
  | nil => exact .refl _
  | snoc _ hstep ih =>
      rw [own_append]
      obtain ⟨rfl, hq⟩ | ⟨hne, hsame⟩ := hstep.calls i
      · rw [own_singleton_self]
        exact ih.append (.step hq (.refl _))
      · rw [own_singleton_ne hne, List.append_nil, hsame]
        exact ih

/-- A call that has its result keeps it. -/
theorem Run.done {σ τ : System ρ} {h : List (Agent × Exchange)} (hr : Run σ h τ) {i : Nat} {r : ρ}
    (hdone : σ.calls i = .done r) : τ.calls i = .done r := by
  have hreach := hr.reaches i
  rw [hdone] at hreach
  exact hreach.of_done.2

theorem Step.caches {σ τ : System ρ} {a : Agent} {x : Exchange} (hstep : Step σ a x τ)
    (k : KeyId) : τ.caches k = σ.caches k ∨
      ∃ p st, x = .answered (.release p st) () ∧ p.key = k ∧ τ.caches k = st := by
  have hafter : (σ.after a x).caches k = σ.caches k ∨
      ∃ p st, x = .answered (.release p st) () ∧ p.key = k ∧ (σ.after a x).caches k = st := by
    unfold after
    split
    · exact .inl rfl
    · next p st _ =>
      by_cases hk : p.key = k
      · subst hk
        exact .inr ⟨p, st, rfl, rfl, by simp⟩
      · exact .inl (by simp [Function.update_of_ne (Ne.symm hk)])
    · exact .inl rfl
    · exact .inl rfl
  cases hstep with
  | call _ _ => exact hafter
  | job _ _ _ => exact hafter

theorem Step.caches_release {σ τ : System ρ} {a : Agent} {p : Provider} {st : SequenceState}
    (hstep : Step σ a (.answered (.release p st) ()) τ) : τ.caches p.key = st := by
  cases hstep with
  | call _ _ => exact Function.update_self _ _ _
  | job _ _ _ => exact Function.update_self _ _ _

end System

end PacketRelay
