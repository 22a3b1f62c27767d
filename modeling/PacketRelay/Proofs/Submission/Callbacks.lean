import PacketRelay.Proofs.Submission.Confirmations

/-!
# Callers are told once

The job that a reporting call leaves tells its caller the error of the submission, or waits for the
job that looks for the transaction and tells what that found.  No one else tells the caller
anything.
-/

namespace PacketRelay

open Program

/-- What comes of a confirmation: the response of a transaction that is confirmed, the error of one
that failed, and that the wait timed out. -/
inductive Confirmation.Gives : Confirmation → Except RelayError TxResponse → Prop where
  | confirmed (response : TxResponse) : Gives (.confirmed response) (.ok response)
  | failed (response : Option TxResponse) (error : RelayError) :
    Gives (.failed response error) (.error error)
  | timedOut (txHash : String) (timeout : Duration) :
    Gives (.timedOut txHash timeout) (.error (.confirmationTimeout txHash timeout))

theorem Confirmation.gives_toResult (c : Confirmation) : c.Gives c.toResult := by
  cases c with
  | confirmed response => exact .confirmed response
  | failed response error => exact .failed response error
  | timedOut txHash timeout => exact .timedOut txHash timeout

def Exchange.notice? (caller : Nat) : Exchange → Option (Except RelayError TxResponse)
  | .answered (.notify i result) _ => if i = caller then some result else none
  | _ => none

theorem Exchange.eq_notify {caller : Nat} {x : Exchange} {result : Except RelayError TxResponse}
    (hx : x.notice? caller = some result) : x = .answered (.notify caller result) () := by
  unfold notice? at hx
  split at hx
  · next i r _ =>
    split at hx
    · next hi => rw [hi, Option.some.inj hx]
    · cases hx
  · cases hx

namespace Provider

variable {p : Provider} {caller : Nat}

/-- A job that reports tells its caller one thing, as the last thing that it does. -/
theorem reaches_report {outcome : Except RelayError Nat} {h : List Exchange}
    {q : Program (Option Confirmation)}
    (hreach : (p.runJob (.report caller outcome)).Reaches h q) :
    ((∀ r, q ≠ .done r) ∧ h.filterMap (Exchange.notice? caller) = []) ∨
      ∃ result, q = .done none ∧ h.filterMap (Exchange.notice? caller) = [result] ∧
        match outcome with
        | .error e => result = .error e
        | .ok job => ∃ c, .answered (.join job) c ∈ h ∧ result = c.toResult := by
  have htold (r : Except RelayError TxResponse) :
      Exchange.notice? caller (.answered (.notify caller r) ()) = some r := if_pos rfl
  cases outcome with
  | error e =>
      obtain _ | ⟨⟨⟨⟩⟩, hrest⟩ := hreach
      · exact .inl ⟨(fun _ hq => by cases hq), rfl⟩
      · obtain ⟨rfl, rfl⟩ := Reaches.of_done hrest
        exact .inr ⟨_, rfl, List.filterMap_cons_some (htold _), rfl⟩
  | ok job =>
      obtain _ | ⟨⟨c⟩, hrest⟩ := hreach
      · exact .inl ⟨(fun _ hq => by cases hq), rfl⟩
      · obtain _ | ⟨⟨⟨⟩⟩, hrest⟩ := hrest
        · exact .inl ⟨(fun _ hq => by cases hq), rfl⟩
        · obtain ⟨rfl, rfl⟩ := Reaches.of_done hrest
          refine .inr ⟨_, rfl, ?_, c, List.mem_cons_self, rfl⟩
          rw [List.filterMap_cons_none rfl, List.filterMap_cons_some (htold _)]
          rfl

end Provider

namespace System

variable {caches : KeyId → SequenceState} {calls : Nat → MempoolCall}
  {τ : System (Except RelayError Unit)} {h : List (Agent × Exchange)} {i n : Nat} {c : Submission}

/-- What a run tells a caller. -/
def notices (caller : Nat) (h : List (Agent × Exchange)) : List (Except RelayError TxResponse) :=
  h.filterMap fun e => e.2.notice? caller

theorem notices_eq_own {caller : Nat} {a : Agent}
    (hagent : ∀ e ∈ h, e.2.notice? caller ≠ none → e.1 = a) :
    notices caller h = (own a h).filterMap (Exchange.notice? caller) := by
  rw [notices, own, List.filterMap_filterMap]
  refine List.filterMap_congr fun e he => ?_
  split
  · rfl
  · next hne =>
    by_contra hsome
    exact hne (hagent e he hsome)

/-- What a job that was joined yielded stays its result. -/
theorem Run.joined {ρ : Type} {σ τ : System ρ} (hr : Run σ h τ) {a : Agent} {c : Confirmation}
    (hmem : (a, .answered (.join n) c) ∈ h) : τ.jobs[n]? = some (.done (some c)) := by
  obtain ⟨g, g', rfl⟩ := List.append_of_mem hmem
  obtain ⟨σ₁, hbefore, hrest⟩ := hr.split
  obtain ⟨q, hq, hreach⟩ := hrest.reaches_job (hrest.step.elim fun _ hstep =>
    hstep.1.getElem?_jobs_join)
  rw [hq, hreach.of_done.2]

/-- Only the job that a reporting call leaves tells its caller something. -/
theorem Run.exists_reporter (hr : Run (start caches fun i => (calls i).program i) h τ) {a : Agent}
    {x : Exchange} (hx : (a, x) ∈ h) {result : Except RelayError TxResponse}
    (hnotice : x.notice? i = some result) : ∃ n p outcome, a = .job n ∧
      (.call i, .answered (.spawn p (.report i outcome)) n) ∈ h := by
  obtain rfl := Exchange.eq_notify hnotice
  cases a with
  | call k =>
      obtain hsubmits | ⟨d, outcome, _, hspawn⟩ :=
        MempoolCall.mem_of_reaches (hr.reaches k) (mem_own.mpr hx)
      · exact hsubmits.elim
      · cases hspawn
  | job n =>
      have hown := mem_own.mpr hx
      have hn : n < τ.jobs.length := by
        by_contra hge
        rw [hr.own_job_eq_nil (Nat.le_of_not_lt hge)] at hown
        cases hown
      rw [hr.length_jobs] at hn
      obtain ⟨⟨p, j⟩, hspawned⟩ : ∃ s, (spawns h)[n]? = some s := ⟨_, List.getElem?_eq_getElem hn⟩
      obtain ⟨q, _, hreach⟩ := hr.reaches_spawned hspawned
      cases j with
      | confirm hash s =>
          obtain ⟨st, hpath, _⟩ := hreach.follows (T := fun _ => True) (fun _ _ => trivial)
            Provider.follows_confirmJob
          obtain ⟨_, _, hmove⟩ := hpath.exists_move hown
          cases hmove with
          | looked hlook => exact hlook.elim
      | report caller outcome =>
          have hcaller : i = caller := (hreach.asks Provider.asks_report).1 _ hown
          obtain ⟨b, hspawn⟩ := hr.getElem?_spawns_iff.mp hspawned
          refine ⟨n, p, outcome, rfl, ?_⟩
          subst hcaller
          cases b with
          | call k =>
              obtain hsubmits | ⟨d, _, _, hrequest⟩ :=
                MempoolCall.mem_of_reaches (hr.reaches k) (mem_own.mpr hspawn)
              · exact hsubmits.elim
              · cases hrequest
                exact hspawn
          | job m =>
              exact (hr.asks_of_job (fun _ => Provider.asks_runJob) (by simp [start]) hspawn).elim

/-- Before a reporting call is done its caller is told nothing; from then on the caller is told what
its job tells. -/
theorem Run.callback (hr : Run (start caches fun i => (calls i).program i) h τ)
    (hcall : calls i = .report c) :
    ((∀ r, τ.calls i ≠ .done r) ∧ notices i h = []) ∨
      ∃ g outcome n q, τ.calls i = .done (outcome.map fun _ => ()) ∧
        own (.call i) h =
          g ++ [.answered (.spawn c.provider (.report i (outcome.map PendingTx.job))) n] ∧
        g.filterMap Exchange.wait? = Provider.waiting outcome ∧ τ.jobs[n]? = some q ∧
        (c.provider.runJob (.report i (outcome.map PendingTx.job))).Reaches (own (.job n) h) q ∧
        notices i h = (own (.job n) h).filterMap (Exchange.notice? i) := by
  have hreach := hr.reaches i
  simp only [start, hcall, MempoolCall.program] at hreach
  obtain ⟨hsubmits, hnotdone⟩ | ⟨g, outcome, n, hown, hsubmits, hrun, hdone⟩ :=
    Provider.reaches_submitReporting hreach
  · refine .inl ⟨hnotdone, List.filterMap_eq_nil_iff.mpr fun e he => ?_⟩
    by_contra hsome
    obtain ⟨result, hnotice⟩ := Option.ne_none_iff_exists'.mp hsome
    obtain ⟨n, p, outcome, _, hspawn⟩ := hr.exists_reporter he hnotice
    exact hsubmits _ (mem_own.mpr hspawn)
  · right
    have hlast : .answered (.spawn c.provider (.report i (outcome.map PendingTx.job))) n ∈
        own (.call i) h := by
      rw [hown]
      simp
    obtain ⟨q, hq, hjob⟩ := hr.reaches_spawned (hr.getElem?_spawns_iff.mpr ⟨_, mem_own.mp hlast⟩)
    refine ⟨g, outcome, n, q, hdone, hown, hrun.waits, hq, hjob, notices_eq_own fun e he hsome => ?_⟩
    obtain ⟨result, hnotice⟩ := Option.ne_none_iff_exists'.mp hsome
    obtain ⟨m, p, outcome', hagent, hspawn⟩ := hr.exists_reporter he hnotice
    have hmem := mem_own.mpr hspawn
    rw [hown] at hmem
    obtain hmem | hmem := List.mem_append.mp hmem
    · exact (hsubmits _ hmem).elim
    · cases List.mem_singleton.mp hmem
      exact hagent

/-- What a caller is told once the call is done: the error of a submission that failed, or what
comes of the confirmation that the job found which waits for its transaction. -/
inductive Tells (τ : System (Except RelayError Unit)) (h : List (Agent × Exchange)) (i : Nat) :
    Except RelayError TxResponse → Prop where
  | refused {e : RelayError} :
    τ.calls i = .done (.error e) → (own (.call i) h).filterMap Exchange.wait? = [] →
      Tells τ h i (.error e)
  | found {n : Nat} {c : Confirmation} {result : Except RelayError TxResponse} :
    τ.calls i = .done (.ok ()) → (own (.call i) h).filterMap Exchange.wait? = [n] →
      τ.jobs[n]? = some (.done (some c)) → c.Gives result → Tells τ h i result

/-- At any time a caller has been told nothing, or one thing, which is the outcome of its call. -/
theorem Run.told (hr : Run (start caches fun i => (calls i).program i) h τ)
    (hcall : calls i = .report c) :
    notices i h = [] ∨ ∃ result, notices i h = [result] ∧ Tells τ h i result := by
  obtain ⟨_, hnone⟩ | ⟨g, outcome, n, q, hdone, hown, hwaits, _, hjob, hnotices⟩ := hr.callback hcall
  · exact .inl hnone
  · rw [hnotices]
    have hwait : (own (.call i) h).filterMap Exchange.wait? = Provider.waiting outcome := by
      rw [hown, List.filterMap_append, hwaits]
      exact List.append_nil _
    obtain ⟨_, hnone⟩ | ⟨result, _, hone, hresult⟩ := Provider.reaches_report hjob
    · exact .inl hnone
    · refine .inr ⟨result, hone, ?_⟩
      cases outcome with
      | error e =>
          obtain rfl : result = .error e := hresult
          exact .refused hdone hwait
      | ok pending =>
          obtain ⟨found, hjoin, rfl⟩ := hresult
          exact .found hdone hwait (hr.joined (mem_own.mp hjoin)) found.gives_toResult

/-- Once all jobs are finished, the caller of a call that is done has been told. -/
theorem Run.notices_ne_nil (hr : Run (start caches fun i => (calls i).program i) h τ)
    (hcall : calls i = .report c) {r : Except RelayError Unit} (hdone : τ.calls i = .done r)
    (hjobs : ∀ q ∈ τ.jobs, ∃ r, q = .done r) : notices i h ≠ [] := by
  obtain ⟨hnotdone, _⟩ | ⟨g, outcome, n, q, _, _, _, hq, hjob, hnotices⟩ := hr.callback hcall
  · exact absurd hdone (hnotdone r)
  · rw [hnotices]
    obtain ⟨hnotdone, _⟩ | ⟨result, _, hone, _⟩ := Provider.reaches_report hjob
    · obtain ⟨r, hr⟩ := hjobs q (List.mem_of_getElem? hq)
      exact absurd hr (hnotdone r)
    · simp [hone]

end System

end PacketRelay
