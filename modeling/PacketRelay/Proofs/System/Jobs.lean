import PacketRelay.Proofs.Program.Asks
import PacketRelay.Proofs.System.Basic

/-!
# Jobs

A job looks transactions up, joins another job and reports.  It broadcasts nothing and touches no
lock.
-/

namespace PacketRelay

open Program

/-- The requests of jobs. -/
def Request.OfJob : Request → Prop
  | .rest | .now | .pause _ | .record .. | .join _ | .notify .. => True
  | .call _ (.tx _) => True
  | _ => False

/-- The requests by which a transaction is looked up. -/
def Request.OfLookup : Request → Prop
  | .rest | .now | .pause _ | .record _ .rpcError => True
  | .call _ (.tx _) => True
  | _ => False

theorem Request.OfLookup.ofJob (r : Request) (h : r.OfLookup) : r.OfJob := by
  cases r with
  | call p c => cases c <;> first | exact h.elim | trivial
  | _ => first | exact h.elim | trivial

namespace Provider

variable {p : Provider} {s : Signal}

theorem asks_lookupUntil {hash : String} {timeout : Duration} {deadline rounds : Nat} :
    Asks Request.OfLookup (p.lookupUntil hash timeout deadline s rounds) := by
  induction rounds with
  | zero => trivial
  | succ rounds ih =>
      refine (asks_request (r := .now) trivial).bind fun now => ?_
      refine (Attempt.asks_guard trivial (Attempt.asks_request trivial)).bind fun r => ?_
      cases r with
      | error stopped => trivial
      | ok _ =>
          dsimp only
          split
          · trivial
          · refine (Attempt.asks_guard trivial (Attempt.asks_bind (Attempt.asks_request trivial)
              fun _ => Attempt.asks_ofExcept _)).bind fun found => ?_
            cases judgeLookup found with
            | some result => trivial
            | none =>
                cases found with
                | error e => exact (asks_request trivial).bind fun _ => ih
                | ok r => exact ih

theorem asks_awaitInclusion {hash : String} {timeout : Duration} :
    Asks Request.OfLookup (p.awaitInclusion hash timeout s).run :=
  Attempt.asks_bind (Attempt.asks_request trivial) fun _ => asks_lookupUntil

theorem asks_confirm {hash : String} : Asks Request.OfJob (p.confirm hash s) :=
  (asks_awaitInclusion.mono Request.OfLookup.ofJob).bind fun _ =>
    (asks_request trivial).bind fun _ => trivial

theorem asks_runJob (j : Job) : Asks Request.OfJob (p.runJob j) := by
  cases j with
  | confirm hash s => exact asks_confirm.bind fun _ => trivial
  | report caller outcome =>
      cases outcome with
      | error e => exact (asks_request trivial).bind fun _ => trivial
      | ok job =>
          exact (asks_request trivial).bind fun _ => (asks_request trivial).bind fun _ => trivial

end Provider

namespace System

variable {ρ : Type}

theorem mem_jobs_after {σ : System ρ} {a : Agent} {x : Exchange}
    {j : Program (Option Confirmation)} (hj : j ∈ (σ.after a x).jobs) :
    j ∈ σ.jobs ∨ ∃ (p : Provider) (k : Job), j = p.runJob k := by
  unfold after at hj
  split at hj
  · exact .inl hj
  · exact .inl hj
  · next p k _ =>
    obtain hj | hj := List.mem_append.mp hj
    · exact .inl hj
    · exact .inr ⟨p, k, List.mem_singleton.mp hj⟩
  · exact .inl hj

variable {R : Request → Prop}

theorem Step.jobs_ask {σ τ : System ρ} {a : Agent} {x : Exchange} (hstep : Step σ a x τ)
    (hrun : ∀ (p : Provider) (k : Job), Asks R (p.runJob k)) (hjobs : ∀ j ∈ σ.jobs, Asks R j) :
    ∀ j ∈ τ.jobs, Asks R j := by
  have hafter (j : Program (Option Confirmation)) (hj : j ∈ (σ.after a x).jobs) : Asks R j := by
    obtain hj | ⟨p, k, rfl⟩ := mem_jobs_after hj
    · exact hjobs j hj
    · exact hrun p k
  cases hstep with
  | call _ _ => exact hafter
  | job hn hq _ =>
      intro j hj
      obtain hj | rfl := List.mem_or_eq_of_mem_set hj
      · exact hafter j hj
      · exact (hq.asks (hjobs _ (List.mem_of_getElem? hn))).2

theorem Run.jobs_ask {σ τ : System ρ} {h : List (Agent × Exchange)} (hr : Run σ h τ)
    (hrun : ∀ (p : Provider) (k : Job), Asks R (p.runJob k)) (hjobs : ∀ j ∈ σ.jobs, Asks R j) :
    ∀ j ∈ τ.jobs, Asks R j := by
  induction hr with
  | nil => exact hjobs
  | snoc _ hstep ih => exact hstep.jobs_ask hrun ih

/-- What all programs of jobs ask for is all that jobs ask for. -/
theorem Run.asks_of_job {σ τ : System ρ} {h : List (Agent × Exchange)} (hr : Run σ h τ)
    (hrun : ∀ (p : Provider) (k : Job), Asks R (p.runJob k)) (hjobs : ∀ j ∈ σ.jobs, Asks R j)
    {n : Nat} {x : Exchange} (hx : (.job n, x) ∈ h) : R x.request := by
  induction hr with
  | nil => simp at hx
  | snoc hbefore hstep ih =>
      obtain hx | hx := List.mem_append.mp hx
      · exact ih hx
      · cases List.mem_singleton.mp hx
        cases hstep with
        | job hn hq _ =>
            exact (hq.asks (hbefore.jobs_ask hrun hjobs _ (List.mem_of_getElem? hn))).1

/-- An exchange that no job makes is one of a call. -/
theorem Step.exists_call {σ τ : System ρ} {a : Agent} {x : Exchange} (hstep : Step σ a x τ)
    (hjobs : ∀ j ∈ σ.jobs, Asks Request.OfJob j) (hx : ¬ x.request.OfJob) :
    ∃ i, a = .call i ∧ (σ.calls i).Step x (τ.calls i) := by
  cases hstep with
  | @call i _ q hq _ => exact ⟨i, rfl, by simpa using hq⟩
  | job hn hq _ => exact absurd (hq.asks (hjobs _ (List.mem_of_getElem? hn))).1 hx

end System

end PacketRelay
