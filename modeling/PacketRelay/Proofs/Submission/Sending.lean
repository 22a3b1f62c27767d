import PacketRelay.Proofs.Submission.Exchanges

/-!
# Sending

A send is a loop of submissions, followed by a wait for the job that the accepted one left.
-/

namespace PacketRelay.Provider

open Program

variable {p : Provider} {msgs : List Outgoing} {memo : String} {s : Signal}

/-- The histories of a send's loop of submissions, from the first one on. -/
def SendRounds (p : Provider) (msgs : List Outgoing) (memo : String) (s : Signal)
    (h : List Exchange) (r : Except RelayError PendingTx) : Prop :=
  RetryPolicy.Rounds p.config.retry .submission s (fun _ => p.submit msgs memo s s)
    (p.config.retry.attempts - 1) 1 [] h r

/-- The histories of a send, with their results. -/
inductive SendRun (p : Provider) (msgs : List Outgoing) (memo : String) (s : Signal) :
    List Exchange → Except RelayError TxResponse → Prop where
  | unsubmitted {h : List Exchange} {e : RelayError} :
    SendRounds p msgs memo s h (.error e) → SendRun p msgs memo s h (.error e)
  | unconfirmed {h : List Exchange} {pending : PendingTx} {confirmation : Confirmation}
      {e : RelayError} :
    SendRounds p msgs memo s h (.ok pending) →
      SendRun p msgs memo s (h ++ [.answered (.join pending.job) confirmation]) (.error e)
  | confirmed {h : List Exchange} {pending : PendingTx} {response : TxResponse} :
    SendRounds p msgs memo s h (.ok pending) → response.code = 0 →
      SendRun p msgs memo s (h ++ [.answered (.join pending.job) (.confirmed response)])
        (.ok response)

theorem yields_send {h : List Exchange} {r : Except RelayError TxResponse}
    (hy : (p.send msgs memo s).run.Yields h r) : SendRun p msgs memo s h r := by
  obtain ⟨e, hloop, rfl⟩ | ⟨h₁, pending, h₂, rfl, hloop, hy₁⟩ := Attempt.yields_bind_iff.mp hy
  · exact .unsubmitted (RetryPolicy.yields_attemptsFrom hloop)
  have hrounds : SendRounds p msgs memo s h₁ (.ok pending) :=
    RetryPolicy.yields_attemptsFrom hloop
  obtain ⟨confirmation, h₂, rfl, hy₂⟩ := Attempt.yields_request_bind_iff.mp hy₁
  obtain ⟨e, hresult, rfl⟩ | ⟨h₂, response, h₃, rfl, hresult, hy₃⟩ :=
    Attempt.yields_bind_iff.mp hy₂
  · obtain ⟨rfl, _⟩ := Attempt.yields_ofExcept_iff.mp hresult
    exact .unconfirmed hrounds
  obtain ⟨rfl, hok⟩ := Attempt.yields_ofExcept_iff.mp hresult
  have hconfirmed : confirmation = .confirmed response := by
    cases confirmation with
    | confirmed response' => rw [Except.ok.inj hok]
    | failed _ _ => cases hok
    | timedOut _ _ => cases hok
  subst hconfirmed
  by_cases hcode : response.code = 0
  · have hzero : ¬ response.code ≠ 0 := not_not_intro hcode
    simp only [if_neg hzero] at hy₃
    obtain ⟨rfl, rfl⟩ := Attempt.yields_pure_iff.mp hy₃
    exact .confirmed hrounds hcode
  · simp only [if_pos (show response.code ≠ 0 from hcode), Attempt.throw_bind] at hy₃
    obtain ⟨rfl, rfl⟩ := Attempt.yields_throw_iff.mp hy₃
    exact .unconfirmed hrounds

end PacketRelay.Provider
