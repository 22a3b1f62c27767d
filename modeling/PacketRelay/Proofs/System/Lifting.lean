import PacketRelay.Proofs.System.Basic

/-!
# Histories of a call in the system

A history of one call is a run of the system, if the system lets the call have every answer.  Only
the answers about locks and jobs are in the system's hands.
-/

namespace PacketRelay

/-- The request concerns neither a lock nor a job. -/
def Request.Plain : Request → Prop
  | .acquire _ | .release .. | .spawn .. | .join _ => False
  | _ => True

namespace System

variable {ρ : Type}

/-- The system lets an agent have the answers of a history, one after the other. -/
def AllowsAll (σ : System ρ) (a : Agent) : List Exchange → Prop
  | [] => True
  | x :: h => σ.Allows a x ∧ (σ.after a x).AllowsAll a h

/-- What a history of an agent does to the system. -/
def afterAll (σ : System ρ) (a : Agent) (h : List Exchange) : System ρ :=
  h.foldl (fun σ x => σ.after a x) σ

theorem after_calls (σ : System ρ) (f : Nat → Program ρ) (a : Agent) (x : Exchange) :
    ({ σ with calls := f } : System ρ).after a x = { σ.after a x with calls := f } := by
  unfold after
  split <;> rfl

theorem allows_calls_iff {σ : System ρ} {f : Nat → Program ρ} {a : Agent} {x : Exchange} :
    ({ σ with calls := f } : System ρ).Allows a x ↔ σ.Allows a x := by
  unfold Allows
  split <;> rfl

theorem allowsAll_calls_iff {σ : System ρ} {f : Nat → Program ρ} {a : Agent}
    {h : List Exchange} :
    ({ σ with calls := f } : System ρ).AllowsAll a h ↔ σ.AllowsAll a h := by
  induction h generalizing σ with
  | nil => rfl
  | cons x h ih => rw [AllowsAll, AllowsAll, allows_calls_iff, after_calls, ih]

theorem afterAll_calls (σ : System ρ) (f : Nat → Program ρ) (a : Agent) (h : List Exchange) :
    ({ σ with calls := f } : System ρ).afterAll a h = { σ.afterAll a h with calls := f } := by
  induction h generalizing σ with
  | nil => rfl
  | cons x h ih =>
      simp only [afterAll, List.foldl_cons] at ih ⊢
      rw [after_calls, ih]

theorem Run.of_reaches {σ : System ρ} {i : Nat} {q : Program ρ} {h : List Exchange}
    (hq : (σ.calls i).Reaches h q) (hallow : σ.AllowsAll (.call i) h) :
    Run σ (h.map fun x => (.call i, x))
      { σ.afterAll (.call i) h with calls := Function.update σ.calls i q } := by
  generalize hp : σ.calls i = p at hq
  induction hq generalizing σ with
  | refl p =>
      subst hp
      rw [Function.update_eq_self]
      exact .nil σ
  | @step p q₁ q x h hstep _ ih =>
      subst hp
      have hfirst : Step σ (.call i) x
          { σ.after (.call i) x with calls := Function.update σ.calls i q₁ } :=
        .call hstep hallow.1
      have hσ : ({ σ.after (.call i) x with calls := Function.update σ.calls i q₁ } :
          System ρ).calls i = q₁ := Function.update_self i q₁ σ.calls
      have hrest := ih (allowsAll_calls_iff.mpr hallow.2) hσ
      rw [afterAll_calls, Function.update_idem] at hrest
      exact ((Run.nil σ).snoc hfirst).append hrest

theorem Run.split {σ τ : System ρ} {h h' : List (Agent × Exchange)} (hr : Run σ (h ++ h') τ) :
    ∃ υ, Run σ h υ ∧ Run υ h' τ := by
  generalize hfull : h ++ h' = g at hr
  induction hr generalizing h' with
  | nil =>
      obtain ⟨rfl, rfl⟩ := List.append_eq_nil_iff.mp hfull
      exact ⟨σ, .nil σ, .nil σ⟩
  | @snoc τ τ' g a x hrun hstep ih =>
      obtain rfl | ⟨h'', y, rfl⟩ := h'.eq_nil_or_concat
      · rw [List.append_nil] at hfull
        exact ⟨τ', hfull ▸ hrun.snoc hstep, .nil τ'⟩
      · rw [List.concat_eq_append, ← List.append_assoc] at hfull
        obtain ⟨rfl, hlast⟩ := List.append_inj' hfull rfl
        obtain ⟨υ, hυ, hrest⟩ := ih rfl
        obtain rfl := (List.cons.inj hlast).1
        exact ⟨υ, hυ, by simpa using hrest.snoc hstep⟩

theorem Run.eq_of_nil {σ τ : System ρ} (hr : Run σ [] τ) : τ = σ := by
  generalize hnil : ([] : List (Agent × Exchange)) = h at hr
  cases hr with
  | nil => rfl
  | snoc _ _ => simp at hnil

theorem Run.step {σ τ : System ρ} {a : Agent} {x : Exchange} {h : List (Agent × Exchange)}
    (hr : Run σ ((a, x) :: h) τ) : ∃ υ, Step σ a x υ ∧ Run υ h τ := by
  obtain ⟨υ, hfirst, hrest⟩ := Run.split (h := [(a, x)]) hr
  refine ⟨υ, ?_, hrest⟩
  generalize hone : [(a, x)] = g at hfirst
  cases hfirst with
  | nil => cases hone
  | snoc hnil hstep =>
      rw [← List.nil_append [(a, x)]] at hone
      obtain ⟨rfl, hlast⟩ := List.append_inj' hone rfl
      cases hlast
      rw [hnil.eq_of_nil] at hstep
      exact hstep

/-- Plain exchanges are always allowed and change nothing. -/
theorem after_of_plain {σ : System ρ} {a : Agent} {x : Exchange} (hx : x.request.Plain) :
    σ.Allows a x ∧ σ.after a x = σ := by
  cases x with
  | stopped n r => exact ⟨trivial, rfl⟩
  | answered r b => cases r <;> first | exact hx.elim | exact ⟨trivial, rfl⟩

/-- A history of a job that concerns neither locks nor jobs is a run of the system. -/
theorem Run.of_job {σ : System ρ} {n : Nat} {j q : Program (Option Confirmation)}
    {h : List Exchange} (hq : j.Reaches h q) (hj : σ.jobs[n]? = some j)
    (hh : ∀ x ∈ h, x.request.Plain) :
    Run σ (h.map fun x => (.job n, x)) { σ with jobs := σ.jobs.set n q } := by
  induction hq generalizing σ with
  | refl p =>
      obtain ⟨hn, rfl⟩ := List.getElem?_eq_some_iff.mp hj
      rw [List.set_getElem_self]
      exact .nil σ
  | @step p q₁ q x h hstep _ ih =>
      obtain ⟨hx, hrest⟩ := List.forall_mem_cons.mp hh
      obtain ⟨hallow, hafter⟩ := after_of_plain (σ := σ) (a := .job n) hx
      have hfirst := Step.job hj hstep hallow
      rw [hafter] at hfirst
      have hn := (List.getElem?_eq_some_iff.mp hj).1
      have hrun := ih (σ := { σ with jobs := σ.jobs.set n q₁ }) (List.getElem?_set_self hn) hrest
      rw [List.set_set] at hrun
      exact ((Run.nil σ).snoc hfirst).append hrun

theorem allowsAll_plain_append_iff {σ : System ρ} {a : Agent} {h h' : List Exchange}
    (hh : ∀ x ∈ h, x.request.Plain) :
    (σ.AllowsAll a (h ++ h') ↔ σ.AllowsAll a h') ∧
      σ.afterAll a (h ++ h') = σ.afterAll a h' := by
  induction h with
  | nil => exact ⟨Iff.rfl, rfl⟩
  | cons x h ih =>
      obtain ⟨hx, hrest⟩ := List.forall_mem_cons.mp hh
      obtain ⟨hallow, hafter⟩ := after_of_plain (σ := σ) (a := a) hx
      obtain ⟨hiff, heq⟩ := ih hrest
      constructor
      · rw [List.cons_append, AllowsAll, hafter, hiff]
        exact and_iff_right hallow
      · simp only [afterAll, List.cons_append, List.foldl_cons, hafter] at heq ⊢
        exact heq

end System

end PacketRelay
