import PacketRelay.Proofs.System.Joins
import PacketRelay.Proofs.System.Tally

/-!
# The jobs of a run

Jobs are numbered in the order in which a run starts them.  Each does what its program does, from
the moment at which it was started.
-/

namespace PacketRelay

/-- The job that an exchange starts. -/
def Exchange.spawned? : Exchange → Option (Provider × Job)
  | .answered (.spawn p j) _ => some (p, j)
  | _ => none

theorem Exchange.eq_spawn {x : Exchange} {p : Provider} {j : Job} (hx : x.spawned? = some (p, j)) :
    ∃ n : Nat, x = .answered (.spawn p j) n := by
  unfold spawned? at hx
  split at hx
  · next n =>
    obtain ⟨rfl, rfl⟩ := Prod.mk.inj (Option.some.inj hx)
    exact ⟨n, rfl⟩
  · cases hx

namespace System

variable {ρ : Type} {σ τ : System ρ} {a : Agent} {x : Exchange} {n : Nat} {p : Provider} {j : Job}
  {caches : KeyId → SequenceState} {calls : Nat → Program ρ} {h : List (Agent × Exchange)}

/-- The jobs that a run started, in order. -/
def spawns (h : List (Agent × Exchange)) : List (Provider × Job) :=
  h.filterMap fun e => e.2.spawned?

theorem spawns_snoc (h : List (Agent × Exchange)) (e : Agent × Exchange) :
    spawns (h ++ [e]) = spawns h ++ e.2.spawned?.toList := by
  rw [spawns, List.filterMap_append]
  cases hx : e.2.spawned? <;> simp [spawns, hx]

theorem jobs_after (σ : System ρ) (a : Agent) (x : Exchange) :
    (σ.after a x).jobs = σ.jobs ++ x.spawned?.toList.map fun s => s.1.runJob s.2 := by
  unfold after
  split
  · exact (List.append_nil _).symm
  · exact (List.append_nil _).symm
  · rfl
  · next hspawn =>
    have hnone : x.spawned? = none := by
      unfold Exchange.spawned?
      split
      · exact absurd rfl (hspawn _ _ _)
      · rfl
    rw [hnone]
    exact (List.append_nil _).symm

theorem Step.length_jobs (hstep : Step σ a x τ) :
    τ.jobs.length = σ.jobs.length + x.spawned?.toList.length := by
  cases hstep with
  | call _ _ => simp [jobs_after]
  | job _ _ _ => simp [jobs_after]

theorem Step.lt_length_jobs (hstep : Step σ (.job n) x τ) : n < σ.jobs.length := by
  cases hstep with
  | job hn _ _ => exact (List.getElem?_eq_some_iff.mp hn).1

/-- A new job gets the next number. -/
theorem Step.spawn_number (hstep : Step σ a (.answered (.spawn p j) n) τ) :
    n = σ.jobs.length := by
  cases hstep with
  | call _ hallow => exact hallow
  | job _ _ hallow => exact hallow

theorem Run.length_jobs (hr : Run (start caches calls) h τ) :
    τ.jobs.length = (spawns h).length := by
  induction hr with
  | nil => rfl
  | snoc _ hstep ih => rw [hstep.length_jobs, ih, spawns_snoc, List.length_append]

/-- A job does nothing before it is started. -/
theorem Run.own_job_eq_nil (hr : Run (start caches calls) h τ) (hn : τ.jobs.length ≤ n) :
    own (.job n) h = [] := by
  induction hr with
  | nil => rfl
  | @snoc τ τ' h a x _ hstep ih =>
      rw [hstep.length_jobs] at hn
      rw [own_append, ih (by omega), List.nil_append]
      refine own_singleton_ne (fun heq => ?_) x
      subst heq
      have hlt := hstep.lt_length_jobs
      omega

/-- A job bears the number that its start was answered with. -/
theorem Run.getElem?_spawns_iff (hr : Run (start caches calls) h τ) :
    (spawns h)[n]? = some (p, j) ↔ ∃ a, (a, .answered (.spawn p j) n) ∈ h := by
  induction hr with
  | nil => simp [spawns]
  | @snoc τ τ' h b x hbefore hstep ih =>
      have hlen : τ.jobs.length = (spawns h).length := hbefore.length_jobs
      have hlast : (.answered (.spawn p j) n = x) ↔
          x.spawned? = some (p, j) ∧ n = (spawns h).length := by
        constructor
        · rintro rfl
          exact ⟨rfl, hlen ▸ hstep.spawn_number⟩
        · rintro ⟨hx, rfl⟩
          obtain ⟨m, rfl⟩ := Exchange.eq_spawn hx
          rw [hstep.spawn_number, hlen]
      have hmem : (∃ a, (a, Exchange.answered (.spawn p j) n) ∈ h ++ [(b, x)]) ↔
          (∃ a, (a, Exchange.answered (.spawn p j) n) ∈ h) ∨ .answered (.spawn p j) n = x := by
        simp only [List.mem_append, List.mem_singleton, Prod.mk.injEq, exists_or,
          exists_eq_left]
      rw [hmem, hlast, ← ih, spawns_snoc]
      by_cases hn : n < (spawns h).length
      · rw [List.getElem?_append_left hn]
        exact ⟨.inl, fun hor => hor.elim id fun hlast => absurd hlast.2 (Nat.ne_of_lt hn)⟩
      · have hle : (spawns h).length ≤ n := Nat.le_of_not_lt hn
        rw [List.getElem?_append_right hle, List.getElem?_eq_none hle]
        cases hx : x.spawned? with
        | none => simp
        | some s =>
            simp only [Option.toList_some, reduceCtorEq, false_or, Option.some.injEq]
            constructor
            · intro hs
              obtain ⟨hlt, heq⟩ := List.getElem?_eq_some_iff.mp hs
              have hzero : n - (spawns h).length = 0 := Nat.lt_one_iff.mp hlt
              simp only [hzero, List.getElem_singleton] at heq
              exact ⟨heq, by omega⟩
            · rintro ⟨rfl, rfl⟩
              simp

/-- Every job that was started has done a part of its program. -/
theorem Run.reaches_spawned (hr : Run (start caches calls) h τ)
    (hn : (spawns h)[n]? = some (p, j)) :
    ∃ q, τ.jobs[n]? = some q ∧ (p.runJob j).Reaches (own (.job n) h) q := by
  obtain ⟨a, hmem⟩ := hr.getElem?_spawns_iff.mp hn
  obtain ⟨g, g', rfl⟩ := List.append_of_mem hmem
  obtain ⟨σ₁, hbefore, hrest⟩ := hr.split
  obtain ⟨σ₂, hspawn, hlater⟩ := hrest.step
  obtain ⟨q, hq, hreach⟩ := hlater.reaches_job hspawn.getElem?_jobs_spawn
  have hnumber : n = σ₁.jobs.length := hspawn.spawn_number
  have hnone : own (.job n) g = [] := hbefore.own_job_eq_nil (Nat.le_of_eq hnumber.symm)
  have hself : a ≠ .job n := by
    rintro rfl
    exact absurd hspawn.lt_length_jobs (by omega)
  have hown : own (.job n) (g ++ (a, .answered (.spawn p j) n) :: g') = own (.job n) g' := by
    rw [List.append_cons, own_append, own_append, hnone, own_singleton_ne hself]
    rfl
  rw [hown]
  exact ⟨q, hq, hreach⟩

/-- Where calls contribute nothing, a run amounts to what its jobs contributed. -/
theorem Run.tally_eq_sum_jobs {M : Type} [AddCommMonoid M] {w : Agent → Exchange → M}
    (hr : Run (start caches calls) h τ)
    (hcalls : ∀ i, ((own (.call i) h).map (w (.call i))).sum = 0) :
    tally w h = ∑ n ∈ Finset.range τ.jobs.length, ((own (.job n) h).map (w (.job n))).sum := by
  let jobs : Finset Agent := (Finset.range τ.jobs.length).image .job
  let agents : Finset Agent := (h.map Prod.fst).toFinset ∪ jobs
  have hagents : ∀ e ∈ h, e.1 ∈ agents := fun e he =>
    Finset.mem_union_left _ (List.mem_toFinset.mpr (List.mem_map_of_mem he))
  have hother : ∀ a ∈ agents, a ∉ jobs → ((own a h).map (w a)).sum = 0 := by
    intro a _ ha
    cases a with
    | call i => exact hcalls i
    | job n =>
        have hn : τ.jobs.length ≤ n := by
          by_contra hlt
          exact ha (Finset.mem_image_of_mem _ (Finset.mem_range.mpr (Nat.lt_of_not_le hlt)))
        rw [hr.own_job_eq_nil hn]
        rfl
  rw [tally_eq_sum agents h hagents, ← Finset.sum_subset Finset.subset_union_right hother]
  exact Finset.sum_image fun m _ n _ heq => Agent.job.inj heq

end System

end PacketRelay
