import PacketRelay.Proofs.System.Lifting

/-!
# What a call learns of its jobs

A job's exchanges are a history of the program that it was started with, and all come after its
start.  A join answers with what this program yielded.
-/

namespace PacketRelay.System

variable {ρ : Type} {σ τ : System ρ} {a : Agent} {x : Exchange} {n : Nat}
  {h : List (Agent × Exchange)}

theorem own_eq_append {l₁ l₂ : List Exchange} (hown : own a h = l₁ ++ x :: l₂) :
    ∃ g₁ g₂, h = g₁ ++ (a, x) :: g₂ ∧ own a g₁ = l₁ ∧ own a g₂ = l₂ := by
  obtain ⟨g₁, g, rfl, hg₁, hg⟩ := List.filterMap_eq_append_iff.mp hown
  obtain ⟨g₂, ⟨b, y⟩, g₃, rfl, hskip, hy, hg₃⟩ := List.filterMap_eq_cons_iff.mp hg
  split at hy
  · next hb =>
    obtain rfl := Option.some.inj hy
    obtain rfl : b = a := hb
    have hnone : own b g₂ = [] := List.filterMap_eq_nil_iff.mpr hskip
    refine ⟨g₁ ++ g₂, g₃, by simp, ?_, hg₃⟩
    rw [own_append, hnone, List.append_nil]
    exact hg₁
  · cases hy

theorem getElem?_jobs_after {j : Program (Option Confirmation)} (hj : σ.jobs[n]? = some j) :
    (σ.after a x).jobs[n]? = some j := by
  unfold after
  split
  · exact hj
  · exact hj
  · rw [List.getElem?_append_left (List.getElem?_eq_some_iff.mp hj).1]
    exact hj
  · exact hj

theorem Step.getElem?_jobs {j : Program (Option Confirmation)} (hstep : Step σ a x τ)
    (hj : σ.jobs[n]? = some j) :
    (a = .job n ∧ ∃ q, τ.jobs[n]? = some q ∧ j.Step x q) ∨ a ≠ .job n ∧ τ.jobs[n]? = some j := by
  cases hstep with
  | call _ _ => exact .inr ⟨by simp, getElem?_jobs_after hj⟩
  | @job m _ j' q hm hq _ =>
      by_cases hmn : m = n
      · subst hmn
        obtain rfl := Option.some.inj (hj.symm.trans hm)
        refine .inl ⟨rfl, q, ?_, hq⟩
        have hlt := (List.getElem?_eq_some_iff.mp (getElem?_jobs_after (a := .job m) (x := x) hj)).1
        exact List.getElem?_set_self hlt
      · refine .inr ⟨by simpa using hmn, ?_⟩
        exact (List.getElem?_set_ne hmn).trans (getElem?_jobs_after hj)

/-- What a job did is a history of its own program. -/
theorem Run.reaches_job {j : Program (Option Confirmation)} (hr : Run σ h τ)
    (hj : σ.jobs[n]? = some j) : ∃ q, τ.jobs[n]? = some q ∧ j.Reaches (own (.job n) h) q := by
  induction hr with
  | nil => exact ⟨j, hj, .refl j⟩
  | snoc _ hstep ih =>
      obtain ⟨q, hq, hreach⟩ := ih
      rw [own_append]
      obtain ⟨rfl, q', hq', hmove⟩ | ⟨hne, hq'⟩ := hstep.getElem?_jobs hq
      · rw [own_singleton_self]
        exact ⟨q', hq', hreach.append (.step hmove (.refl q'))⟩
      · rw [own_singleton_ne hne, List.append_nil]
        exact ⟨q, hq', hreach⟩

theorem Step.getElem?_jobs_spawn {p : Provider} {j : Job}
    (hstep : Step σ a (.answered (.spawn p j) n) τ) : τ.jobs[n]? = some (p.runJob j) := by
  have hafter : n = σ.jobs.length →
      (σ.after a (.answered (.spawn p j) n)).jobs[n]? = some (p.runJob j) := by
    rintro rfl
    exact List.getElem?_concat_length
  cases hstep with
  | call _ hallow => exact hafter hallow
  | job hn _ hallow =>
      refine (List.getElem?_set_ne ?_).trans (hafter hallow)
      have hlt := (List.getElem?_eq_some_iff.mp hn).1
      have hlen : n = σ.jobs.length := hallow
      omega

theorem Step.getElem?_jobs_join {c : Confirmation} (hstep : Step σ a (.answered (.join n) c) τ) :
    σ.jobs[n]? = some (.done (some c)) := by
  cases hstep with
  | call _ hallow => exact hallow
  | job _ _ hallow => exact hallow

/-- A call that starts a job and joins it gets what the job yielded in the meantime. -/
theorem Run.joins {p : Provider} {j : Job} {c : Confirmation} {l₁ l₂ l₃ : List Exchange}
    (hr : Run σ h τ) (hown : own a h =
      l₁ ++ .answered (.spawn p j) n :: (l₂ ++ .answered (.join n) c :: l₃)) :
    ∃ g₁ g₂ g₃, h = g₁ ++ (a, .answered (.spawn p j) n) ::
        (g₂ ++ (a, .answered (.join n) c) :: g₃) ∧ own a g₁ = l₁ ∧
      (p.runJob j).Yields (own (.job n) g₂) (some c) := by
  obtain ⟨g₁, g, rfl, hg₁, hg⟩ := own_eq_append hown
  obtain ⟨g₂, g₃, rfl, _, _⟩ := own_eq_append hg
  obtain ⟨σ₁, _, hrest⟩ := hr.split
  obtain ⟨σ₂, hspawn, hrest⟩ := hrest.step
  obtain ⟨σ₃, hmid, hrest⟩ := hrest.split
  obtain ⟨σ₄, hjoin, _⟩ := hrest.step
  obtain ⟨q, hq, hreach⟩ := hmid.reaches_job hspawn.getElem?_jobs_spawn
  obtain rfl := Option.some.inj (hq.symm.trans hjoin.getElem?_jobs_join)
  exact ⟨g₁, g₂, g₃, rfl, hg₁, hreach⟩

end PacketRelay.System
