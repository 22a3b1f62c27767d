import PacketRelay.Proofs.Submission.Building

/-!
# Submissions under the lock

A submission waits for the lock, builds, broadcasts at most once and gives the lock back.  The state
that it gives back is read off the way in which it ended.
-/

namespace PacketRelay

open Program

/-- Why an answer to a broadcast is no acceptance. -/
def rejection : Except BroadcastFailure BroadcastAnswer → Option RelayError
  | .error failure =>
    match failure.response with
    | none => some failure.error
    | some a => some (if a.code ≠ 0 then .ofTxCode a.codespace a.code a.log else failure.error)
  | .ok a => if a.code ≠ 0 then some (.ofTxCode a.codespace a.code a.log) else none

theorem rejection_eq_none_iff {answer : Except BroadcastFailure BroadcastAnswer} :
    rejection answer = none ↔ ∃ a, answer = .ok a ∧ a.code = 0 := by
  cases answer with
  | error failure => cases hr : failure.response <;> simp [rejection, hr]
  | ok a => simp [rejection]

/-- The hash under which an accepted transaction is looked up. -/
def BroadcastAnswer.lookupHash (a : BroadcastAnswer) (tx : Bytes) : String :=
  if a.hash = "" then txHash tx else a.hash

namespace Provider

/-- The exchanges by which a provider books an answer to a broadcast. -/
def booking (p : Provider) (fees : List Coin) :
    Except BroadcastFailure BroadcastAnswer → List Exchange
  | .error ⟨_, none⟩ =>
    [.answered (.record p (.broadcast false)) (), .answered (.record p .rpcError) ()]
  | .error ⟨_, some _⟩ => [.answered (.record p (.broadcast false)) ()]
  | .ok a =>
    if a.code ≠ 0 then [.answered (.record p (.broadcast false)) ()]
    else [.answered (.record p (.broadcast true)) (), .answered (.spend p fees) ()]

variable {p : Provider} {s waitSignal : Signal}

theorem yields_judgeBroadcast_rejected {tx : Bytes} {fees : List Coin}
    {answer : Except BroadcastFailure BroadcastAnswer} {e : RelayError} {h : List Exchange}
    {r : Except RelayError String} (hanswer : rejection answer = some e)
    (hy : (p.judgeBroadcast tx fees answer).run.Yields h r) :
    h = p.booking fees answer ∧ r = .error e := by
  cases answer with
  | error failure =>
      obtain ⟨error, response⟩ := failure
      obtain ⟨_, h₁, rfl, hy₁⟩ := Attempt.yields_request_bind_iff.mp hy
      cases response with
      | none =>
          obtain ⟨_, h₂, rfl, hy₂⟩ := Attempt.yields_request_bind_iff.mp hy₁
          obtain ⟨rfl, rfl⟩ := Attempt.yields_throw_iff.mp hy₂
          obtain rfl := Option.some.inj hanswer
          exact ⟨rfl, rfl⟩
      | some a =>
          obtain rfl := Option.some.inj hanswer
          dsimp only at hy₁
          split at hy₁
          · next hcode =>
            obtain ⟨rfl, rfl⟩ := Attempt.yields_throw_iff.mp hy₁
            exact ⟨rfl, by rw [if_pos hcode]⟩
          · next hcode =>
            obtain ⟨rfl, rfl⟩ := Attempt.yields_throw_iff.mp hy₁
            exact ⟨rfl, by rw [if_neg hcode]⟩
  | ok a =>
      have hcode : a.code ≠ 0 := by
        intro hcode
        simp [rejection, hcode] at hanswer
      simp only [rejection, if_pos hcode, Option.some.injEq] at hanswer
      simp only [judgeBroadcast, if_pos hcode] at hy
      obtain ⟨_, h₁, rfl, hy₁⟩ := Attempt.yields_request_bind_iff.mp hy
      rw [Attempt.throw_bind] at hy₁
      obtain ⟨rfl, rfl⟩ := Attempt.yields_throw_iff.mp hy₁
      exact ⟨by simp [booking, hcode], by rw [hanswer]⟩

theorem yields_judgeBroadcast_accepted {tx : Bytes} {fees : List Coin} {a : BroadcastAnswer}
    {h : List Exchange} {r : Except RelayError String} (hcode : a.code = 0)
    (hy : (p.judgeBroadcast tx fees (.ok a)).run.Yields h r) :
    h = p.booking fees (.ok a) ∧ r = .ok (a.lookupHash tx) := by
  have hzero : ¬ a.code ≠ 0 := not_not_intro hcode
  simp only [judgeBroadcast, if_neg hzero] at hy
  obtain ⟨_, h₁, rfl, hy₁⟩ := Attempt.yields_request_bind_iff.mp hy
  obtain ⟨_, h₂, rfl, hy₂⟩ := Attempt.yields_request_bind_iff.mp hy₁
  obtain ⟨rfl, rfl⟩ := Attempt.yields_pure_iff.mp hy₂
  exact ⟨by simp [booking, hcode], rfl⟩

/-- The histories of a broadcast, with their results. -/
inductive Broadcasts (p : Provider) (tx : Bytes) (fees : List Coin) (s waitSignal : Signal) :
    List Exchange → Except RelayError PendingTx → Prop where
  | unsent {h : List Exchange} :
    Attempt.Guarded s (Attempt.request (.call p (.broadcast tx))) h (.error .cancelled) →
      Broadcasts p tx fees s waitSignal h (.error .cancelled)
  | refused {answer : Except BroadcastFailure BroadcastAnswer} {e : RelayError} :
    rejection answer = some e →
      Broadcasts p tx fees s waitSignal
        (.answered .rest () :: .answered (.call p (.broadcast tx)) answer :: p.booking fees answer)
        (.error e)
  | accepted {a : BroadcastAnswer} {job : Nat} :
    a.code = 0 →
      Broadcasts p tx fees s waitSignal
        (.answered .rest () :: .answered (.call p (.broadcast tx)) (.ok a) ::
          (p.booking fees (.ok a) ++
            [.answered (.spawn p (.confirm (a.lookupHash tx) waitSignal)) job]))
        (.ok ⟨a.lookupHash tx, 0, job⟩)

theorem yields_broadcast {tx : Bytes} {fees : List Coin} {h : List Exchange}
    {r : Except RelayError PendingTx}
    (hy : (p.broadcast tx fees s waitSignal).run.Yields h r) :
    Broadcasts p tx fees s waitSignal h r := by
  obtain ⟨e, hsend, rfl⟩ | ⟨h₁, answer, h₂, rfl, hsend, hy₁⟩ := Attempt.yields_bind_iff.mp hy
  · have hg := Attempt.yields_guard hsend
    obtain ⟨rfl, -⟩ := hg.request_error
    exact .unsent hg
  obtain rfl := (Attempt.yields_guard hsend).request_ok
  cases hanswer : rejection answer with
  | some e =>
      obtain ⟨e', hjudge, rfl⟩ | ⟨h₂, hash, h₃, rfl, hjudge, _⟩ := Attempt.yields_bind_iff.mp hy₁
      · obtain ⟨rfl, he⟩ := yields_judgeBroadcast_rejected hanswer hjudge
        cases he
        exact .refused hanswer
      · cases (yields_judgeBroadcast_rejected hanswer hjudge).2
  | none =>
      obtain ⟨a, rfl, hcode⟩ := rejection_eq_none_iff.mp hanswer
      obtain ⟨e', hjudge, rfl⟩ | ⟨h₂, hash, h₃, rfl, hjudge, hy₂⟩ := Attempt.yields_bind_iff.mp hy₁
      · cases (yields_judgeBroadcast_accepted hcode hjudge).2
      · obtain ⟨rfl, hhash⟩ := yields_judgeBroadcast_accepted hcode hjudge
        obtain rfl := Except.ok.inj hhash
        obtain ⟨job, h₄, rfl, hy₃⟩ := Attempt.yields_request_bind_iff.mp hy₂
        obtain ⟨rfl, rfl⟩ := Attempt.yields_pure_iff.mp hy₃
        exact .accepted hcode

/-- The histories of a submission that holds the lock, with the states that they leave. -/
inductive LockedRun (p : Provider) (state : SequenceState) (msgs : List Outgoing) (memo : String)
    (s waitSignal : Signal) :
    List Exchange → SequenceState → Except RelayError PendingTx → Prop where
  | unbuilt {h : List Exchange} {st : SequenceState} {e : RelayError} :
    (p.build state msgs memo s).Yields h (st, .error e) →
      LockedRun p state msgs memo s waitSignal h (st.afterFailure e) (.error e)
  | failed {h h' : List Exchange} {st : SequenceState} {built : BuiltTx} {e : RelayError} :
    (p.build state msgs memo s).Yields h (st, .ok built) →
      Broadcasts p built.bytes built.fees s waitSignal h' (.error e) →
      LockedRun p state msgs memo s waitSignal (h ++ h') (st.afterFailure e) (.error e)
  | accepted {h h' : List Exchange} {st : SequenceState} {built : BuiltTx} {pending : PendingTx} :
    (p.build state msgs memo s).Yields h (st, .ok built) →
      Broadcasts p built.bytes built.fees s waitSignal h' (.ok pending) →
      LockedRun p state msgs memo s waitSignal (h ++ h') (st.advance (built.sequence + 1))
        (.ok { pending with sequence := built.sequence })

theorem yields_submitLocked {state st : SequenceState} {msgs : List Outgoing} {memo : String}
    {h : List Exchange} {r : Except RelayError PendingTx}
    (hy : (p.submitLocked state msgs memo s waitSignal).Yields h (st, r)) :
    LockedRun p state msgs memo s waitSignal h st r := by
  obtain ⟨h₁, ⟨st', x⟩, h₂, rfl, hbuild, hy₁⟩ := yields_bind_iff.mp hy
  cases x with
  | error e =>
      obtain ⟨rfl, hr⟩ := yields_done_iff.mp hy₁
      cases hr
      rw [List.append_nil]
      exact .unbuilt hbuild
  | ok built =>
      obtain ⟨h₂, x, h₃, rfl, hsend, hy₂⟩ := yields_bind_iff.mp hy₁
      cases x with
      | error e =>
          obtain ⟨rfl, hr⟩ := yields_done_iff.mp hy₂
          cases hr
          rw [List.append_nil]
          exact .failed hbuild (yields_broadcast hsend)
      | ok pending =>
          obtain ⟨rfl, hr⟩ := yields_done_iff.mp hy₂
          cases hr
          rw [List.append_nil]
          exact .accepted hbuild (yields_broadcast hsend)

/-- The histories of a submission, with their results. -/
inductive SubmitRun (p : Provider) (msgs : List Outgoing) (memo : String) (s waitSignal : Signal) :
    List Exchange → Except RelayError PendingTx → Prop where
  | waited {h : List Exchange} :
    Attempt.Guarded s (Attempt.request (.acquire p)) h (.error .cancelled) →
      SubmitRun p msgs memo s waitSignal h (.error .cancelled)
  | held {h : List Exchange} {state st : SequenceState} {r : Except RelayError PendingTx} :
    LockedRun p state msgs memo s waitSignal h st r →
      SubmitRun p msgs memo s waitSignal
        (.answered .rest () :: .answered (.acquire p) state ::
          (h ++ [.answered (.release p st) ()])) r

theorem yields_submit {msgs : List Outgoing} {memo : String} {h : List Exchange}
    {r : Except RelayError PendingTx} (hy : (p.submit msgs memo s waitSignal).run.Yields h r) :
    SubmitRun p msgs memo s waitSignal h r := by
  obtain ⟨e, hlock, rfl⟩ | ⟨h₁, state, h₂, rfl, hlock, hy₁⟩ := Attempt.yields_bind_iff.mp hy
  · have hg := Attempt.yields_guard hlock
    obtain ⟨rfl, -⟩ := hg.request_error
    exact .waited hg
  obtain rfl := (Attempt.yields_guard hlock).request_ok
  obtain ⟨e, hlocked, rfl⟩ | ⟨h₂, ⟨st, x⟩, h₃, rfl, hlocked, hy₂⟩ :=
    Attempt.yields_bind_iff.mp hy₁
  · obtain ⟨_, _, he⟩ := Attempt.yields_lift_iff.mp hlocked
    cases he
  obtain ⟨_, hrun, hx⟩ := Attempt.yields_lift_iff.mp hlocked
  cases hx
  obtain ⟨_, h₄, rfl, hy₃⟩ := Attempt.yields_request_bind_iff.mp hy₂
  obtain ⟨rfl, rfl⟩ := Attempt.yields_ofExcept_iff.mp hy₃
  exact .held (yields_submitLocked hrun)

end Provider

end PacketRelay
