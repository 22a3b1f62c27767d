import PacketRelay.Proofs.Program.Staged
import PacketRelay.Proofs.Submission.Locked

/-!
# Where a submission waits

The single steps of a submission wait for queries, pauses, the lock and the broadcast.  Each of them
is guarded by the submission's signal, and what is left once the broadcast is accepted waits for
nothing.  So a guard around the whole submission drops it nowhere.
-/

namespace PacketRelay

open Program

/-- What a provider does only once its transaction was accepted: it counts the broadcast, adds up
the fees and leaves a job. -/
def Request.Accepts : Request → Prop
  | .record _ (.broadcast accepted) => accepted = true
  | .spend .. | .spawn .. => True
  | _ => False

theorem Request.Builds.not_accepts {p : Provider} {r : Request} (h : r.Builds p) :
    ¬ r.Accepts := by
  cases r with
  | record q m =>
      rw [h.2]
      exact not_false
  | spend q fees => exact absurd h not_false
  | spawn q j => exact absurd h not_false
  | _ => exact not_false

namespace Provider

variable {p : Provider} {s waitSignal : Signal} {msgs : List Outgoing} {memo : String}

theorem bare_counted {α : Type} {r : Except RelayError α} : (p.counted r).run.Bare := by
  cases r with
  | ok a => trivial
  | error e => exact Attempt.within_bind (Attempt.within_request trivial) fun _ => trivial

theorem bare_queryAbci {path : String} {data : Bytes} {height : UInt64} {prove : Bool} :
    (p.queryAbci path data height prove).run.Bare := by
  refine Attempt.within_bind (Attempt.within_request trivial) fun answer => ?_
  exact Attempt.within_bind bare_counted fun _ => trivial

theorem bare_queryAccount {address : String} : (p.queryAccount address).run.Bare := by
  refine Attempt.within_bind (Attempt.within_lift bare_queryAbci) fun answer => ?_
  cases answer with
  | ok a => trivial
  | error e => dsimp only; split <;> trivial

theorem bare_signTx {f : TxFactory} {u : UnsignedTx} : (p.signTx f u).run.Bare := by
  rw [signTx_eq]
  split
  · trivial
  · exact Attempt.within_bind (Program.within_request trivial) fun _ => trivial

theorem staged_prepare : Attempt.Staged fun s => p.prepare p.factory s := by
  simp only [prepare_factory]
  have haddress : p.address.run.Bare := Program.within_request trivial
  have hensure (sender : String) : (p.ensureAccount sender).run.Bare :=
    Attempt.within_bind bare_queryAccount fun _ => trivial
  have hlookup (sender : String) : (p.accountNumberSequence sender).run.Bare :=
    Attempt.within_bind bare_queryAccount fun _ => trivial
  refine .bind (.step haddress) fun sender => ?_
  refine .bind (.step (hensure sender)) fun _ => ?_
  exact .bind (.step (hlookup sender)) fun _ => .known (.ok _)

theorem staged_assemble {f : TxFactory} {msgs : List Outgoing} :
    Attempt.Staged fun s => p.assemble f msgs s := by
  have hpure {α : Type} (a : α) : (pure a : Attempt α).run.Bare := trivial
  have hsimulate (anys : List Any) : Attempt.Staged fun s => p.simulate f anys s := by
    refine .bind (.step (hpure _)) fun tx => ?_
    refine .bind (.step bare_queryAbci) fun a => ?_
    refine .bind (.known _) fun response => ?_
    exact .bind (.known _) fun gas => .known (.ok _)
  refine .bind (.known _) fun anys => ?_
  refine .bind (hsimulate anys) fun _ => ?_
  refine .bind (.step (hpure _)) fun unsigned => ?_
  refine .bind (.step bare_signTx) fun signed => ?_
  exact .bind (.step (hpure _)) fun _ => .known (.ok _)

theorem cancels_build {X : Request → Prop} {state : SequenceState} :
    (p.build state msgs memo s).Cancels s X fun built => built.2 = .error .cancelled := by
  refine staged_prepare.cancels.bind (fun r => ?_) ?_
  · cases r with
    | error e => trivial
    | ok f =>
        refine staged_assemble.cancels.bind (fun _ => trivial) ?_
        rintro r rfl
        rfl
  · rintro r rfl
    rfl

theorem calm_judgeBroadcast {tx : Bytes} {fees : List Coin}
    {answer : Except BroadcastFailure BroadcastAnswer} :
    (p.judgeBroadcast tx fees answer).run.Calm := by
  have hrecord (m : Metric) : (Attempt.request (.record p m)).run.Calm :=
    Attempt.calm_request not_false
  cases answer with
  | error failure =>
      refine Attempt.calm_bind (hrecord _) fun _ => ?_
      cases failure.response with
      | none => exact Attempt.calm_bind (hrecord _) fun _ => trivial
      | some a => dsimp only; split <;> trivial
  | ok a =>
      unfold judgeBroadcast
      dsimp only
      split
      · exact Attempt.calm_bind (hrecord _) fun _ => trivial
      · refine Attempt.calm_bind (hrecord _) fun _ => ?_
        exact Attempt.calm_bind (Attempt.calm_request not_false) fun _ => trivial

theorem cancelsBefore_broadcast {tx : Bytes} {fees : List Coin} :
    (p.broadcast tx fees s waitSignal).run.CancelsBefore s Request.Accepts
      Attempt.IsCancelled := by
  have hsend : (Attempt.request (.call p (.broadcast tx))).run.Bare :=
    Attempt.within_request trivial
  have hquiet : Asks (fun r => ¬ r.Accepts)
      (Attempt.guard s (Attempt.request (.call p (.broadcast tx)))).run :=
    Attempt.asks_guard not_false (Attempt.asks_request not_false)
  refine Attempt.cancelsBefore_bind (Attempt.cancels_guard hsend) hquiet fun answer => ?_
  refine Calm.cancelsBefore (Attempt.calm_bind calm_judgeBroadcast fun hash => ?_)
  exact Attempt.calm_bind (Attempt.calm_request not_false) fun _ => trivial

theorem cancelsBefore_submitLocked {state : SequenceState} :
    (p.submitLocked state msgs memo s waitSignal).CancelsBefore s Request.Accepts
      fun out => out.2 = .error .cancelled := by
  have hquiet : Asks (fun r => ¬ r.Accepts) (p.build state msgs memo s) :=
    asks_build.mono fun _ => Request.Builds.not_accepts
  refine cancels_build.bind_before hquiet (fun built => ?_) ?_
  · obtain ⟨st, e | built⟩ := built
    · trivial
    · refine cancelsBefore_broadcast.bind_calm (fun r => ?_) ?_
      · cases r with
        | error e => trivial
        | ok pending => trivial
      · rintro r rfl
        rfl
  · rintro ⟨st, r⟩ rfl
    rfl

/-- A submission waits under its signal only, and has nothing left to wait for when its broadcast is
accepted. -/
theorem cancelsBefore_submit :
    (p.submit msgs memo s waitSignal).run.CancelsBefore s Request.Accepts
      Attempt.IsCancelled := by
  have hlock : (Attempt.request (.acquire p)).run.Bare := Attempt.within_request trivial
  have hquiet : Asks (fun r => ¬ r.Accepts)
      (Attempt.guard s (Attempt.request (.acquire p))).run :=
    Attempt.asks_guard not_false (Attempt.asks_request not_false)
  refine Attempt.cancelsBefore_bind (Attempt.cancels_guard hlock) hquiet fun state => ?_
  rw [ExceptT.run_bind_lift, bind_eq]
  refine cancelsBefore_submitLocked.bind_calm (fun out => ?_) ?_
  · exact Attempt.calm_bind (Attempt.calm_request not_false) fun _ => trivial
  · rintro ⟨st, r⟩ rfl
    exact ⟨⟨not_false, not_false⟩, fun _ => rfl⟩

/-- A guarded submission that is stopped only while it waits is never dropped in the middle. -/
theorem guarded_submit_timely {h : List Exchange} {r : Except RelayError PendingTx}
    (hy : (Attempt.guard s (p.submit msgs memo s waitSignal)).run.Yields h r)
    (hh : ∀ x ∈ h, x.Timely) :
    (∃ n, h = [.stopped n .rest] ∧ r = .error .cancelled) ∨
      ∃ h', h = .answered .rest () :: h' ∧ (p.submit msgs memo s waitSignal).run.Yields h' r :=
  (Attempt.yields_guard hy).timely cancelsBefore_submit.cancels.heeds.vigilant hh

end Provider

end PacketRelay
