import PacketRelay.Proofs.Submission.Booking
import PacketRelay.Proofs.Submission.Concurrent

/-!
# Calls that return at the mempool

A submission and its reporting variant both return once the mempool has answered.  An accepted
transaction leaves one job that waits for it; the reporting variant leaves another one, as the last
thing that it does, which tells the caller how it ended.
-/

namespace PacketRelay

open Program

/-- The requests by which a call submits. -/
def Request.Submits (p : Provider) : Request → Prop
  | .acquire q | .release q _ | .spend q _ => q = p
  | .call q (.broadcast _) => q = p
  | .record _ (.confirmation _) => False
  | .record q _ => q = p
  | .spawn q (.confirm ..) => q = p
  | r => r.Builds p

theorem Request.Builds.submits {p : Provider} (r : Request) (h : r.Builds p) : r.Submits p := by
  cases r with
  | call q c =>
      cases c with
      | broadcast tx => exact h.elim
      | _ => exact h
  | record q m =>
      obtain ⟨rfl, rfl⟩ := h
      rfl
  | acquire q => exact h.elim
  | release q st => exact h.elim
  | spend q fees => exact h.elim
  | spawn q j => exact h.elim
  | _ => exact h

/-- The number of the job that an exchange leaves waiting for a transaction. -/
def Exchange.wait? : Exchange → Option Nat
  | .answered (.spawn _ (.confirm ..)) n => some n
  | _ => none

theorem Request.Builds.wait? {p : Provider} {x : Exchange} (h : x.request.Builds p) :
    x.wait? = none := by
  unfold Exchange.wait?
  split
  · exact h.elim
  · rfl

namespace Provider

variable {p : Provider} {s waitSignal : Signal} {msgs : List Outgoing} {memo : String} {i : Nat}

theorem asks_judgeBroadcast {tx : Bytes} {fees : List Coin}
    (answer : Except BroadcastFailure BroadcastAnswer) :
    Asks (Request.Submits p) (p.judgeBroadcast tx fees answer).run := by
  cases answer with
  | error failure =>
      refine Attempt.asks_bind (Attempt.asks_request rfl) fun _ => ?_
      cases failure.response with
      | none => exact Attempt.asks_bind (Attempt.asks_request rfl) fun _ => trivial
      | some a =>
          dsimp only
          split
          · trivial
          · trivial
  | ok a =>
      by_cases hcode : a.code = 0
      · simp only [judgeBroadcast, if_neg (not_not_intro hcode)]
        exact Attempt.asks_bind (Attempt.asks_request rfl) fun _ =>
          Attempt.asks_bind (Attempt.asks_request rfl) fun _ => trivial
      · simp only [judgeBroadcast, if_pos (show a.code ≠ 0 from hcode)]
        exact Attempt.asks_bind (Attempt.asks_request rfl) fun _ => trivial

theorem asks_broadcast {tx : Bytes} {fees : List Coin} :
    Asks (Request.Submits p) (p.broadcast tx fees s waitSignal).run :=
  Attempt.asks_bind (Attempt.asks_guard trivial (Attempt.asks_request rfl)) fun answer =>
    Attempt.asks_bind (asks_judgeBroadcast answer) fun _ =>
      Attempt.asks_bind (Attempt.asks_request rfl) fun _ => trivial

theorem asks_submit : Asks (Request.Submits p) (p.submit msgs memo s waitSignal).run := by
  refine Attempt.asks_bind (Attempt.asks_guard trivial (Attempt.asks_request rfl)) fun state => ?_
  refine Attempt.asks_bind (Attempt.asks_lift ?_) fun _ =>
    Attempt.asks_bind (Attempt.asks_request rfl) fun _ => trivial
  refine (asks_build.mono Request.Builds.submits).bind fun ⟨st, built⟩ => ?_
  cases built with
  | error e => trivial
  | ok built =>
      refine asks_broadcast.bind fun r => ?_
      cases r with
      | error e => trivial
      | ok pending => trivial

/-- The job that an outcome of a submission leaves waiting. -/
def waiting : Except RelayError PendingTx → List Nat
  | .ok pending => [pending.job]
  | .error _ => []

theorem Broadcasts.waits {tx : Bytes} {fees : List Coin} {h : List Exchange}
    {r : Except RelayError PendingTx} (hb : Broadcasts p tx fees s waitSignal h r) :
    h.filterMap Exchange.wait? = waiting r := by
  have hbooking (answer : Except BroadcastFailure BroadcastAnswer) :
      (p.booking fees answer).filterMap Exchange.wait? = [] := by
    refine List.filterMap_eq_nil_iff.mpr fun x hx => ?_
    obtain ⟨m, rfl⟩ | rfl := mem_booking hx
    · rfl
    · rfl
  cases hb with
  | unsent hg =>
      obtain ⟨_, n, _, rfl | rfl⟩ := hg.request_error
      · rfl
      · rfl
  | refused _ => exact hbooking _
  | accepted _ =>
      rw [List.filterMap_cons_none rfl, List.filterMap_cons_none rfl, List.filterMap_append,
        hbooking]
      rfl

theorem LockedRun.waits {state st : SequenceState} {h : List Exchange}
    {r : Except RelayError PendingTx} (hl : LockedRun p state msgs memo s waitSignal h st r) :
    h.filterMap Exchange.wait? = waiting r := by
  have hbuild {st : SequenceState} {built : Except RelayError BuiltTx} {h : List Exchange}
      (hy : (p.build state msgs memo s).Yields h (st, built)) : h.filterMap Exchange.wait? = [] :=
    List.filterMap_eq_nil_iff.mpr fun x hx => (Program.Yields.asks hy asks_build x hx).wait?
  cases hl with
  | unbuilt hy => exact hbuild hy
  | failed hy hb =>
      rw [List.filterMap_append, hbuild hy, hb.waits]
      rfl
  | accepted hy hb =>
      rw [List.filterMap_append, hbuild hy, hb.waits]
      rfl

/-- An accepted transaction leaves one job that waits for it, and no other submission leaves one. -/
theorem SubmitRun.waits {h : List Exchange} {r : Except RelayError PendingTx}
    (hr : SubmitRun p msgs memo s waitSignal h r) : h.filterMap Exchange.wait? = waiting r := by
  cases hr with
  | waited hg =>
      obtain ⟨_, n, _, rfl | rfl⟩ := hg.request_error
      · rfl
      · rfl
  | held hl =>
      rw [List.filterMap_cons_none rfl, List.filterMap_cons_none rfl, List.filterMap_append,
        hl.waits]
      exact List.append_nil _

theorem yields_submitReporting {h : List Exchange} {r : Except RelayError Unit}
    (hy : (p.submitReporting msgs memo s waitSignal i).run.Yields h r) :
    ∃ g outcome n, h = g ++ [.answered (.spawn p (.report i (outcome.map PendingTx.job))) n] ∧
      (p.submit msgs memo s waitSignal).run.Yields g outcome ∧ r = outcome.map fun _ => () := by
  obtain ⟨e, hsubmit, _⟩ | ⟨g, outcome, h', rfl, hsubmit, hy₁⟩ := Attempt.yields_bind_iff.mp hy
  · obtain ⟨_, _, he⟩ := Attempt.yields_outcome_iff.mp hsubmit
    cases he
  obtain ⟨_, hsubmit, ho⟩ := Attempt.yields_outcome_iff.mp hsubmit
  cases ho
  refine ⟨g, outcome, ?_⟩
  cases outcome with
  | ok pending =>
      obtain ⟨n, h₂, rfl, hy₂⟩ := Attempt.yields_request_bind_iff.mp hy₁
      obtain ⟨rfl, rfl⟩ := Attempt.yields_pure_iff.mp hy₂
      exact ⟨n, rfl, hsubmit, rfl⟩
  | error e =>
      obtain ⟨n, h₂, rfl, hy₂⟩ := Attempt.yields_request_bind_iff.mp hy₁
      obtain ⟨rfl, rfl⟩ := Attempt.yields_throw_iff.mp hy₂
      exact ⟨n, rfl, hsubmit, rfl⟩

theorem yields_submitReporting_of {g : List Exchange} {outcome : Except RelayError PendingTx}
    (hy : (p.submit msgs memo s waitSignal).run.Yields g outcome) (n : Nat) :
    (p.submitReporting msgs memo s waitSignal i).run.Yields
      (g ++ [.answered (.spawn p (.report i (outcome.map PendingTx.job))) n])
      (outcome.map fun _ => ()) := by
  unfold submitReporting Attempt.outcome
  rw [ExceptT.run_bind_lift, bind_eq]
  refine Program.yields_bind_iff.mpr ⟨g, outcome, _, rfl, hy, ?_⟩
  cases outcome with
  | ok pending =>
      exact Attempt.yields_request_bind_iff.mpr
        ⟨n, [], rfl, Attempt.yields_pure_iff.mpr ⟨rfl, rfl⟩⟩
  | error e =>
      exact Attempt.yields_request_bind_iff.mpr
        ⟨n, [], rfl, Attempt.yields_throw_iff.mpr ⟨rfl, rfl⟩⟩

/-- A reporting submission leaves the job that reports as the last thing that it does. -/
theorem reaches_submitReporting {h : List Exchange} {q : Program (Except RelayError Unit)}
    (hreach : (p.submitReporting msgs memo s waitSignal i).run.Reaches h q) :
    ((∀ x ∈ h, x.request.Submits p) ∧ ∀ r, q ≠ .done r) ∨
      ∃ g outcome n, h = g ++ [.answered (.spawn p (.report i (outcome.map PendingTx.job))) n] ∧
        (∀ x ∈ g, x.request.Submits p) ∧ SubmitRun p msgs memo s waitSignal g outcome ∧
        q = .done (outcome.map fun _ => ()) := by
  obtain ⟨h', r, hrest⟩ := q.exists_yields
  obtain ⟨g, outcome, n, hfull, hsubmit, rfl⟩ := yields_submitReporting (hreach.append hrest)
  rcases h'.eq_nil_or_concat with rfl | ⟨t, x, rfl⟩
  · right
    rw [List.append_nil] at hfull
    exact ⟨g, outcome, n, hfull, Program.Yields.asks hsubmit asks_submit, yields_submit hsubmit,
      reaches_nil_iff.mp hrest⟩
  · left
    rw [List.concat_eq_append, ← List.append_assoc] at hfull
    obtain ⟨rfl, _⟩ := List.append_inj' hfull rfl
    constructor
    · intro x hx
      exact Program.Yields.asks hsubmit asks_submit x (List.mem_append_left _ hx)
    · rintro r rfl
      simpa using (Reaches.of_done hrest).1

end Provider

/-- A call that returns once the mempool has answered. -/
inductive MempoolCall where
  | submit (c : Submission)
  | report (c : Submission)

namespace MempoolCall

def submission : MempoolCall → Submission
  | .submit c | .report c => c

/-- What a call does; callers are told by the number of their call. -/
def program (i : Nat) : MempoolCall → Program (Except RelayError Unit)
  | .submit c => do return (← c.program).map fun _ => ()
  | .report c => (c.provider.submitReporting c.msgs c.memo c.signal c.waitSignal i).run

variable {i : Nat} {Fees : List Coin → Bytes → Prop} {T : Exchange → Prop}

theorem follows_program (hfees : ∀ fees tx, PacketRelay.Pays fees tx → Fees fees tx)
    (c : MempoolCall) :
    Follows (Bookkeeping Fees) T (fun owed _ => owed = []) [] (c.program i) := by
  cases c with
  | submit c => exact (Provider.follows_submit hfees).bind fun _ _ howed => howed
  | report c => exact Provider.follows_submitReporting hfees

/-- What a call requests besides the requests of a submission is the job that reports. -/
theorem mem_of_reaches {c : MempoolCall} {h : List Exchange}
    {q : Program (Except RelayError Unit)} (hreach : (c.program i).Reaches h q) {x : Exchange}
    (hx : x ∈ h) : x.request.Submits c.submission.provider ∨
      ∃ d outcome, c = .report d ∧ x.request = .spawn d.provider (.report i outcome) := by
  cases c with
  | submit c =>
      refine .inl ((hreach.asks ?_).1 x hx)
      exact Provider.asks_submit.bind fun _ => trivial
  | report c =>
      obtain ⟨hsubmits, _⟩ | ⟨g, outcome, n, rfl, hsubmits, _⟩ :=
        Provider.reaches_submitReporting hreach
      · exact .inl (hsubmits x hx)
      · obtain hx | hx := List.mem_append.mp hx
        · exact .inl (hsubmits x hx)
        · rw [List.mem_singleton.mp hx]
          exact .inr ⟨c, _, rfl, rfl⟩

end MempoolCall

end PacketRelay
