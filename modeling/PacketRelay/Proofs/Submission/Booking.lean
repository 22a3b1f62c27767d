import PacketRelay.Proofs.Program.Follows
import PacketRelay.Proofs.Submission.Exchanges

/-!
# Broadcasts are booked

An answer to a broadcast makes its provider owe entries: an accepted transaction is counted, its fees
are added up and a job is left for it, any other answer is counted as a rejection.  Entries are made
in order, before anything else is done, and at no other time.
-/

namespace PacketRelay

open Program

/-- The request enters a broadcast in the books. -/
def Request.Enters : Request → Prop
  | .record _ (.broadcast _) | .spend .. | .spawn _ (.confirm ..) => True
  | _ => False

/-- The request is no broadcast and has no part in booking one. -/
def Request.Aside : Request → Prop
  | .call _ (.broadcast _) | .record _ (.broadcast _) | .spend .. | .spawn _ (.confirm ..) => False
  | _ => True

/-- The entries that an answer to a broadcast makes a provider owe. -/
def Provider.dues (p : Provider) (tx : Bytes) (fees : List Coin) (waitSignal : Signal) :
    Except BroadcastFailure BroadcastAnswer → List Request
  | .ok a =>
    if a.code = 0 then
      [.record p (.broadcast true), .spend p fees, .spawn p (.confirm (a.lookupHash tx) waitSignal)]
    else [.record p (.broadcast false)]
  | .error _ => [.record p (.broadcast false)]

/-- How the entries that are owed change; `Fees` tells the fees of a transaction. -/
inductive Bookkeeping (Fees : List Coin → Bytes → Prop) :
    List Request → Exchange → List Request → Prop where
  | entered {r : Request} {a : r.Answer} {owed : List Request} :
    r.Enters → Bookkeeping Fees (r :: owed) (.answered r a) owed
  | incurred {p : Provider} {tx : Bytes} {fees : List Coin} {waitSignal : Signal}
      {answer : Except BroadcastFailure BroadcastAnswer} :
    Fees fees tx →
      Bookkeeping Fees [] (.answered (.call p (.broadcast tx)) answer) (p.dues tx fees waitSignal answer)
  | unsent {p : Provider} {tx : Bytes} {n : Nat} :
    Bookkeeping Fees [] (.stopped n (.call p (.broadcast tx))) []
  | aside {x : Exchange} : x.request.Aside → Bookkeeping Fees [] x []

theorem Request.Builds.aside {p : Provider} {r : Request} (h : r.Builds p) : r.Aside := by
  cases r with
  | call q c =>
      cases c with
      | broadcast tx => exact h.elim
      | _ => trivial
  | record q m =>
      rw [h.2]
      trivial
  | spend q fees => exact h.elim
  | spawn q j => exact h.elim
  | _ => trivial

namespace Provider

variable {p : Provider} {s waitSignal : Signal} {Fees : List Coin → Bytes → Prop}
  {T : Exchange → Prop}

theorem follows_judgeBroadcast {tx : Bytes} {fees : List Coin}
    (answer : Except BroadcastFailure BroadcastAnswer) :
    Follows (Bookkeeping Fees) T (fun owed r => owed = match r with
        | .error _ => []
        | .ok hash => [.spawn p (.confirm hash waitSignal)])
      (p.dues tx fees waitSignal answer) (p.judgeBroadcast tx fees answer).run := by
  cases answer with
  | error failure =>
      refine Attempt.follows_request_bind fun _ => ⟨[], .entered trivial, ?_⟩
      cases failure.response with
      | none =>
          exact Attempt.follows_request_bind fun _ => ⟨[], .aside trivial, rfl⟩
      | some a =>
          dsimp only
          split
          · rfl
          · rfl
  | ok a =>
      by_cases hcode : a.code = 0
      · have hzero : ¬ a.code ≠ 0 := not_not_intro hcode
        simp only [dues, judgeBroadcast, if_pos hcode, if_neg hzero]
        refine Attempt.follows_request_bind fun _ => ⟨_, .entered trivial, ?_⟩
        refine Attempt.follows_request_bind fun _ => ⟨_, .entered trivial, ?_⟩
        exact rfl
      · simp only [dues, judgeBroadcast, if_neg hcode, if_pos (show a.code ≠ 0 from hcode)]
        exact Attempt.follows_request_bind fun _ => ⟨_, .entered trivial, rfl⟩

theorem follows_broadcast {tx : Bytes} {fees : List Coin} (hfees : Fees fees tx) :
    Follows (Bookkeeping Fees) T (fun owed _ => owed = []) []
      (p.broadcast tx fees s waitSignal).run := by
  have hsend : Follows (Bookkeeping Fees) T (fun owed r => owed = match r with
        | .error _ => []
        | .ok answer => p.dues tx fees waitSignal answer) []
      (Attempt.guard s (Attempt.request (.call p (.broadcast tx)))).run :=
    Attempt.follows_guard_request (.aside trivial) (fun _ => ⟨.aside trivial, rfl⟩)
      (fun answer => ⟨_, .incurred hfees, rfl⟩) fun _ => ⟨[], .unsent, rfl⟩
  refine Attempt.follows_bind hsend (fun _ _ howed => howed) fun _ answer howed => ?_
  rw [howed]
  refine Attempt.follows_bind (follows_judgeBroadcast answer) (fun _ _ howed => howed)
    fun _ hash howed => ?_
  rw [howed]
  exact Attempt.follows_request_bind fun _ => ⟨[], .entered trivial, rfl⟩

/-- What a submission knows of a transaction that it built. -/
theorem follows_build (hfees : ∀ fees tx, PacketRelay.Pays fees tx → Fees fees tx)
    {state : SequenceState} {msgs : List Outgoing} {memo : String} :
    Follows (Bookkeeping Fees) T (fun owed built => owed = [] ∧
        ∀ b, built.2 = .ok b → Fees b.fees b.bytes) [] (p.build state msgs memo s) := by
  refine (follows_of_asks (fun x hx => .aside (Request.Builds.aside hx)) asks_build).mono ?_
  rintro owed ⟨st, r⟩ ⟨rfl, h, hy⟩
  refine ⟨rfl, fun b hb => ?_⟩
  obtain rfl : r = .ok b := hb
  exact hfees _ _ (pays_of_yields_build hy)

theorem follows_submitLocked (hfees : ∀ fees tx, PacketRelay.Pays fees tx → Fees fees tx)
    {state : SequenceState} {msgs : List Outgoing} {memo : String} :
    Follows (Bookkeeping Fees) T (fun owed _ => owed = []) []
      (p.submitLocked state msgs memo s waitSignal) := by
  refine (follows_build hfees).bind fun owed ⟨st, r⟩ ⟨howed, hbuilt⟩ => ?_
  rw [howed]
  cases r with
  | error e => rfl
  | ok built =>
      refine (follows_broadcast (hbuilt built rfl)).bind fun _ r howed => ?_
      rw [howed]
      cases r with
      | error e => rfl
      | ok pending => rfl

/-- A submission books its broadcast, wherever its signal stops it. -/
theorem follows_submit (hfees : ∀ fees tx, PacketRelay.Pays fees tx → Fees fees tx)
    {msgs : List Outgoing} {memo : String} :
    Follows (Bookkeeping Fees) T (fun owed _ => owed = []) []
      (p.submit msgs memo s waitSignal).run := by
  have hlock : Follows (Bookkeeping Fees) T (fun owed _ => owed = []) []
      (Attempt.guard s (Attempt.request (.acquire p))).run :=
    Attempt.follows_guard_request (.aside trivial) (fun _ => ⟨.aside trivial, rfl⟩)
      (fun _ => ⟨[], .aside trivial, rfl⟩) fun _ => ⟨[], .aside trivial, rfl⟩
  refine Attempt.follows_bind hlock (fun _ _ howed => howed) fun _ state howed => ?_
  rw [howed, ExceptT.run_bind_lift, bind_eq]
  refine (follows_submitLocked hfees).bind fun _ out howed => ?_
  rw [howed]
  exact Attempt.follows_request_bind fun _ => ⟨[], .aside trivial, rfl⟩

theorem follows_submitReporting (hfees : ∀ fees tx, PacketRelay.Pays fees tx → Fees fees tx)
    {msgs : List Outgoing} {memo : String} {caller : Nat} :
    Follows (Bookkeeping Fees) T (fun owed _ => owed = []) []
      (p.submitReporting msgs memo s waitSignal caller).run := by
  unfold submitReporting Attempt.outcome
  rw [ExceptT.run_bind_lift, bind_eq]
  refine (follows_submit hfees).bind fun _ r howed => ?_
  rw [howed]
  cases r with
  | ok pending => exact Attempt.follows_request_bind fun _ => ⟨[], .aside trivial, rfl⟩
  | error e => exact Attempt.follows_request_bind fun _ => ⟨[], .aside trivial, rfl⟩

/-- The guard of a retried submission stops it only where nothing is owed, as far as signals stop
programs only while they wait. -/
theorem follows_send (hfees : ∀ fees tx, PacketRelay.Pays fees tx → Fees fees tx)
    {msgs : List Outgoing} {memo : String} :
    Follows (Bookkeeping Fees) Exchange.Timely (fun owed _ => owed = []) []
      (p.send msgs memo s).run := by
  have hstop (owed : List Request) (r : Request) (a : r.Answer) (owed' : List Request) (n : Nat)
      (hmove : Bookkeeping Fees owed (.answered r a) owed') (hn : (Exchange.stopped n r).Timely) :
      ∃ owed'', Bookkeeping Fees owed (.stopped n r) owed'' ∧ owed'' = [] := by
    cases hmove with
    | entered hr => cases r <;> first | exact hr.elim | exact hn.elim
    | incurred _ => exact ⟨[], .unsent, rfl⟩
    | aside hr => exact ⟨[], .aside hr, rfl⟩
  have hloop (x : Exchange) (hx : RetryScope.submission.LoopRequest x.request) :
      Bookkeeping Fees [] x [] := by
    refine .aside ?_
    generalize x.request = r at hx
    cases r <;> first | exact hx.elim | trivial
  have hsubmit : Follows (Bookkeeping Fees) Exchange.Timely (fun owed _ => owed = []) []
      (p.config.retry.submission s (p.submit msgs memo s s)).run :=
    RetryPolicy.follows_attemptsFrom hloop
      (fun _ => Attempt.follows_guard (.aside trivial) hstop (follows_submit hfees)) _ _ _
  refine Attempt.follows_bind hsubmit (fun _ _ howed => howed) fun _ pending howed => ?_
  rw [howed]
  refine Attempt.follows_request_bind fun c => ⟨[], .aside trivial, ?_⟩
  have hresult : Follows (Bookkeeping Fees) Exchange.Timely (fun owed _ => owed = []) []
      (Attempt.ofExcept c.toResult).run := rfl
  refine Attempt.follows_bind hresult (fun _ _ howed => howed) fun _ response howed => ?_
  rw [howed]
  split
  · rfl
  · rfl

end Provider

end PacketRelay
