import PacketRelay.Proofs.Submission.Exchanges
import PacketRelay.Proofs.System.Jobs
import PacketRelay.Proofs.System.Lock

/-!
# Submissions side by side

Submissions of any providers, with any messages and signals, run in one system.  An exchange of a
submission happens before it has the lock, while it holds it, or gives it back.
-/

namespace PacketRelay

open Program

/-- A call that submits messages. -/
structure Submission where
  provider : Provider
  msgs : List Outgoing
  memo : String
  signal : Signal
  waitSignal : Signal

namespace Submission

def program (c : Submission) : Program (Except RelayError PendingTx) :=
  (c.provider.submit c.msgs c.memo c.signal c.waitSignal).run

/-- The submission holds the lock from this state to that one. -/
def Locked (c : Submission) (state : SequenceState) (h : List Exchange) (st : SequenceState)
    (r : Except RelayError PendingTx) : Prop :=
  Provider.LockedRun c.provider state c.msgs c.memo c.signal c.waitSignal h st r

end Submission

theorem heldCache_of_lockFree {p : Provider} {state : SequenceState} {h : List Exchange}
    (hh : ∀ x ∈ h, x.request.LockFree) :
    heldCache p.key (.answered .rest () :: .answered (.acquire p) state :: h) = some state := by
  rw [heldCache, List.foldl_cons, List.foldl_cons, foldl_holding_of_lockFree hh]
  simp [Exchange.holding]

namespace Provider

variable {p : Provider} {msgs : List Outgoing} {memo : String} {s waitSignal : Signal}

/-- Where an exchange of a submission stands: before the lock, under it, or giving it back. -/
theorem SubmitRun.phase {h₁ h₂ : List Exchange} {x : Exchange} {r : Except RelayError PendingTx}
    (hr : SubmitRun p msgs memo s waitSignal (h₁ ++ x :: h₂) r) :
    (x.request = .rest ∨ x.request = .acquire p) ∨
      ∃ state st body, LockedRun p state msgs memo s waitSignal body st r ∧
        heldCache p.key h₁ = some state ∧
        (x ∈ body ∨ x = .answered (.release p st) () ∧ h₂ = [] ∧
          h₁ = .answered .rest () :: .answered (.acquire p) state :: body) := by
  generalize hfull : h₁ ++ x :: h₂ = full at hr
  cases hr with
  | waited hg =>
      left
      obtain ⟨_, n, _, hstop⟩ := hg.request_error
      have hx : x ∈ full := by
        rw [← hfull]
        simp
      rcases hstop with rfl | rfl
      · obtain rfl := List.mem_singleton.mp hx
        exact .inl rfl
      · rcases List.mem_cons.mp hx with rfl | hx'
        · exact .inl rfl
        · obtain rfl := List.mem_singleton.mp hx'
          exact .inr rfl
  | @held body state st _ hl =>
      have hfree : ∀ y ∈ body, y.request.LockFree := fun y hy => (hl.holds y hy).lockFree
      rcases append_cons_eq_cons_cons hfull with rfl | ⟨rfl, _⟩ | ⟨g, rfl, hrest⟩
      · exact .inl (.inl rfl)
      · exact .inl (.inr rfl)
      refine .inr ⟨state, st, body, hl, ?_⟩
      rcases append_cons_eq_snoc hrest with ⟨t, rfl⟩ | ⟨rfl, rfl, rfl⟩
      · have hbefore : ∀ y ∈ g, y.request.LockFree := by
          intro y hy
          exact hfree y (List.mem_append_left _ hy)
        exact ⟨heldCache_of_lockFree hbefore, .inl (by simp)⟩
      · exact ⟨heldCache_of_lockFree hfree, .inr ⟨rfl, rfl, rfl⟩⟩

theorem SubmitRun.broadcast?_length_le {h : List Exchange} {r : Except RelayError PendingTx}
    (hr : SubmitRun p msgs memo s waitSignal h r) :
    (h.filterMap Exchange.broadcast?).length ≤ 1 := by
  cases hr with
  | waited hg =>
      obtain ⟨_, n, _, rfl | rfl⟩ := hg.request_error
      · exact Nat.zero_le 1
      · exact Nat.zero_le 1
  | @held body state st _ hl =>
      rw [List.filterMap_cons_none rfl, List.filterMap_cons_none rfl, List.filterMap_append]
      have hrelease : [Exchange.answered (.release p st) ()].filterMap Exchange.broadcast? = [] :=
        rfl
      rw [hrelease, List.append_nil]
      cases hbody : body.filterMap Exchange.broadcast? with
      | nil => exact Nat.zero_le 1
      | cons tx txs =>
          have htx : tx ∈ body.filterMap Exchange.broadcast? := by simp [hbody]
          rw [← hbody, (hl.exists_built htx).1]
          exact Nat.le_refl 1

end Provider

namespace System

variable {caches : KeyId → SequenceState} {calls : Nat → Submission}
  {σ τ : System (Except RelayError PendingTx)} {h : List (Agent × Exchange)} {a : Agent}
  {x : Exchange}

/-- Submissions that have not begun. -/
def submitting (caches : KeyId → SequenceState) (calls : Nat → Submission) :
    System (Except RelayError PendingTx) :=
  start caches fun i => (calls i).program

/-- An exchange that no job makes is one of a submission, which can be brought to its end. -/
theorem Run.exists_submitRun (hr : Run (submitting caches calls) h σ) (hstep : Step σ a x τ)
    (hx : ¬ x.request.OfJob) : ∃ i, a = .call i ∧ ∃ h' r, (τ.calls i).Yields h' r ∧
      Provider.SubmitRun (calls i).provider (calls i).msgs (calls i).memo (calls i).signal
        (calls i).waitSignal (own (.call i) h ++ x :: h') r := by
  have hjobs : ∀ j ∈ (submitting caches calls).jobs, Asks Request.OfJob j := by
    intro j hj
    cases hj
  obtain ⟨i, rfl, hq⟩ := hstep.exists_call (hr.jobs_ask (fun _ => Provider.asks_runJob) hjobs) hx
  obtain ⟨h', r, hy⟩ := (τ.calls i).exists_yields
  refine ⟨i, rfl, h', r, hy, Provider.yields_submit ?_⟩
  exact (hr.reaches i).append (.step hq hy)

/-- A broadcast is made under the lock, by a submission that found what the cache still is. -/
theorem Run.broadcasts {tx : Bytes} (hr : Run (submitting caches calls) h σ)
    (hstep : Step σ a x τ) (hx : x.broadcast? = some tx) : ∃ i, a = .call i ∧
      σ.holders (calls i).provider.key = some (.call i) ∧ ∃ st body r,
        (calls i).Locked (σ.caches (calls i).provider.key) body st r ∧ x ∈ body := by
  have hjob : ¬ x.request.OfJob := by
    intro hjob
    unfold Exchange.broadcast? at hx
    split at hx
    · next hreq =>
      rw [hreq] at hjob
      exact hjob
    · cases hx
  obtain ⟨i, rfl, h', r, _, hsubmit⟩ := hr.exists_submitRun hstep hjob
  refine ⟨i, rfl, ?_⟩
  obtain (hreq | hreq) | ⟨state, st, body, hl, hheld, hx' | ⟨rfl, _, _⟩⟩ := hsubmit.phase
  · simp [Exchange.broadcast?, hreq] at hx
  · simp [Exchange.broadcast?, hreq] at hx
  · obtain ⟨hholder, hcache⟩ := hr.held hheld
    exact ⟨hholder, st, body, r, hcache ▸ hl, hx'⟩
  · cases hx

/-- A lock is given back by the submission that holds it, which then has its result. -/
theorem Run.releases {p : Provider} {st : SequenceState}
    (hr : Run (submitting caches calls) h σ)
    (hstep : Step σ a (.answered (.release p st) ()) τ) : ∃ i, a = .call i ∧
      p = (calls i).provider ∧ ∃ body r, (calls i).Locked (σ.caches p.key) body st r ∧
        own (.call i) h = .answered .rest () :: .answered (.acquire p) (σ.caches p.key) :: body ∧
        τ.calls i = .done r := by
  obtain ⟨i, rfl, h', r, hy, hsubmit⟩ := hr.exists_submitRun hstep id
  refine ⟨i, rfl, ?_⟩
  obtain (hreq | hreq) | ⟨state, st', body, hl, hheld, hx | ⟨hx, rfl, hown⟩⟩ := hsubmit.phase
  · cases hreq
  · cases hreq
  · exact (hl.holds _ hx).elim
  · cases hx
    obtain ⟨_, hcache⟩ := hr.held hheld
    exact ⟨rfl, body, r, hcache ▸ hl, hcache ▸ hown, reaches_nil_iff.mp hy⟩

end System

end PacketRelay
