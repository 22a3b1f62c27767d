import PacketRelay.Client.Trust
import PacketRelay.Proofs.Relay.Decision
import PacketRelay.Proofs.Submission.Waiting

/-!
# Cancelling a call

A call that can be cancelled makes no call to a node once its signal has fired.  A submission that
is cancelled before it begins or while it is suspended fails, and nothing of it is booked as
accepted.  A signal that never fires makes no difference.
-/

namespace PacketRelay

open Program

/-- Calls to a node. -/
def Request.Traffic : Request → Prop
  | .call .. | .start .. => True
  | _ => False

theorem Request.Instant.not_traffic (r : Request) (hr : r.Instant) : ¬ r.Traffic := by
  cases r with
  | call p c => exact absurd trivial hr
  | start p c => exact hr.elim
  | _ => exact not_false

namespace Provider

variable {p : Provider}

theorem bare_searchPacket {kind side channel port : String} {sequence : UInt64}
    {find : List TxResult → Option Packet} :
    (p.searchPacket kind side channel port sequence find).run.Bare := by
  refine Attempt.within_bind (Attempt.within_request trivial) fun answer => ?_
  refine Attempt.within_bind bare_counted fun txs => ?_
  cases find txs <;> trivial

theorem bare_blockTime {height : UInt64} : (p.blockTime height).run.Bare :=
  Attempt.within_bind (Attempt.within_request trivial) fun _ => bare_counted

theorem bare_queryProof {height : UInt64} {key : Bytes} : (p.queryProof height key).run.Bare := by
  refine Attempt.within_bind (Attempt.within_ofExcept _) fun queryHeight => ?_
  exact Attempt.within_bind bare_queryAbci fun _ => trivial

theorem bare_proveEntry {height : UInt64} {key : StoreKey} : (p.proveEntry height key).run.Bare :=
  Attempt.within_bind bare_queryProof fun _ => trivial

theorem bare_proveMember {height : UInt64} {key : StoreKey} {absent : String} :
    (p.proveMember height key absent).run.Bare := by
  refine Attempt.within_bind bare_queryProof fun proven => ?_
  dsimp only
  split <;> trivial

theorem bare_unreceivedProof {packet : Packet} {height : UInt64} {order : ChannelOrder} :
    (p.unreceivedProof packet height order).run.Bare := by
  cases order <;> exact bare_proveEntry

theorem bare_clientState {height : UInt64} {client : String} :
    (p.clientState height client).run.Bare := by
  refine Attempt.within_bind bare_queryProof fun proven => ?_
  dsimp only
  split
  · trivial
  · refine Attempt.within_bind (Attempt.within_ofExcept _) fun packed => ?_
    split
    · trivial
    · exact Attempt.within_bind (Attempt.within_ofExcept _) fun _ => trivial

theorem bare_trustedHeight {height : UInt64} {client : String} :
    (p.trustedHeight height client).run.Bare :=
  Attempt.within_bind bare_clientState fun _ => trivial

theorem bare_header {height : UInt64} : (p.header height).run.Bare := by
  unfold header
  split
  · trivial
  · refine Attempt.within_bind (Attempt.within_request trivial) fun answer => ?_
    exact Attempt.within_bind bare_counted fun _ => trivial

theorem calm_signedBy {t : Schema.MessageType} {m : String → Schema.Message} :
    (p.signedBy t m).run.Calm :=
  Attempt.calm_bind (Program.within_request not_false) fun _ => trivial

end Provider

theorem staged_relayPacket {dest source : Provider} {r : RelayRequest} :
    Attempt.Staged fun s => relayPacket dest source r s := by
  refine .bind (.guard Provider.bare_searchPacket) fun packet => ?_
  refine .bind (.guard Provider.bare_blockTime) fun time => ?_
  refine .bind (.known _) fun expiry => ?_
  cases expiry with
  | none =>
      refine .bind (.guard Provider.bare_proveMember) fun proof => .calm ?_
      exact Attempt.calm_bind Provider.calm_signedBy fun _ => trivial
  | some reason =>
      refine .bind (.guard Provider.bare_unreceivedProof) fun proof => .calm ?_
      cases reason <;> exact Attempt.calm_bind Provider.calm_signedBy fun _ => trivial

theorem staged_relayAcknowledgement {source dest : Provider} {destHeight sequence : UInt64}
    {channel port : String} : Attempt.Staged fun s =>
      relayAcknowledgement source dest destHeight sequence channel port s := by
  refine .bind (.guard Provider.bare_searchPacket) fun packet => ?_
  refine .bind (.guard Provider.bare_proveMember) fun proof => ?_
  exact .calm Provider.calm_signedBy

theorem RetryScope.LoopRequest.not_traffic {scope : RetryScope} (r : Request)
    (hr : scope.LoopRequest r) : ¬ r.Traffic := by
  cases r with
  | call p c => exact hr.elim
  | start p c => exact hr.elim
  | _ => exact not_false

section Heeding

variable {s : Signal}

theorem Attempt.Staged.heeds {α : Type} {x : Signal → Attempt α} (hx : Staged x) :
    (x s).run.Heeds s fun r => ¬ r.Traffic :=
  (hx.cancels (X := fun _ => False)).heeds.mono Request.Instant.not_traffic

theorem Provider.heeds_submit {p : Provider} {msgs : List Outgoing} {memo : String}
    {waitSignal : Signal} :
    (p.submit msgs memo s waitSignal).run.Heeds s fun r => ¬ r.Traffic :=
  cancelsBefore_submit.cancels.heeds.mono Request.Instant.not_traffic

theorem Provider.heeds_send {p : Provider} {msgs : List Outgoing} {memo : String} :
    (p.send msgs memo s).run.Heeds s fun r => ¬ r.Traffic := by
  have hloop : (p.config.retry.submission s (p.submit msgs memo s s)).run.Heeds s
      fun r => ¬ r.Traffic :=
    RetryPolicy.heeds_attemptsFrom RetryScope.LoopRequest.not_traffic
      (fun _ => .inr heeds_submit) _ _ _
  refine Attempt.heeds_bind hloop fun pending => ?_
  refine Attempt.heeds_bind (Attempt.heeds_request not_false) fun confirmation => ?_
  refine Attempt.heeds_bind trivial fun response => ?_
  dsimp only
  split <;> trivial

theorem heeds_injectTrust {source dest : Provider} {header : Schema.Message} {client : String}
    {policy : RetryPolicy} :
    (injectTrust source header dest client policy s).run.Heeds s fun r => ¬ r.Traffic := by
  refine Attempt.heeds_bind (Attempt.heeds_guard (.inl Provider.bare_trustedHeight))
    fun trusted => ?_
  have hstep : (policy.step s (source.header (trusted.revisionHeight + 1))).run.Heeds s
      fun r => ¬ r.Traffic :=
    RetryPolicy.heeds_step RetryScope.LoopRequest.not_traffic Provider.bare_header
  refine Attempt.heeds_bind (Attempt.heeds_lift hstep) fun found => ?_
  cases found <;> trivial

end Heeding

section Unfired

variable {p : Provider} {n : Nat} {s s' waitSignal waitSignal' : Signal} {msgs : List Outgoing}
  {memo : String}

theorem Provider.alike_build {state : SequenceState} (hs : s.Alike n s') :
    (p.build state msgs memo s).Alike n (p.build state msgs memo s') := by
  refine (staged_prepare.alike hs).bind fun r => ?_
  cases r with
  | error e => exact .refl _
  | ok f => exact (staged_assemble.alike hs).bind fun _ => .refl _

theorem Provider.alike_broadcast {tx : Bytes} {fees : List Coin} (hs : s.Alike n s')
    (hw : waitSignal.Alike n waitSignal') :
    (p.broadcast tx fees s waitSignal).run.Alike n (p.broadcast tx fees s' waitSignal').run := by
  refine Attempt.alike_bind (Attempt.alike_guard hs (.refl _)) fun answer => ?_
  refine Attempt.alike_bind (.refl _) fun hash => ?_
  exact Attempt.alike_bind (Attempt.alike_lift (alike_spawn hw)) fun _ => .refl _

theorem Provider.alike_submitLocked {state : SequenceState} (hs : s.Alike n s')
    (hw : waitSignal.Alike n waitSignal') :
    (p.submitLocked state msgs memo s waitSignal).Alike n
      (p.submitLocked state msgs memo s' waitSignal') := by
  refine (alike_build hs).bind fun built => ?_
  obtain ⟨st, e | built⟩ := built
  · exact .refl _
  · exact (alike_broadcast hs hw).bind fun _ => .refl _

theorem Provider.alike_submit (hs : s.Alike n s') (hw : waitSignal.Alike n waitSignal') :
    (p.submit msgs memo s waitSignal).run.Alike n (p.submit msgs memo s' waitSignal').run := by
  refine Attempt.alike_bind (Attempt.alike_guard hs (.refl _)) fun state => ?_
  exact Attempt.alike_bind (Attempt.alike_lift (alike_submitLocked hs hw)) fun _ => .refl _

theorem Provider.alike_send (hs : s.Alike n s') :
    (p.send msgs memo s).run.Alike n (p.send msgs memo s').run := by
  have hloop : (p.config.retry.submission s (p.submit msgs memo s s)).run.Alike n
      (p.config.retry.submission s' (p.submit msgs memo s' s')).run :=
    RetryPolicy.alike_attemptsFrom hs (fun _ => alike_submit hs hs) _ _ _
  exact Attempt.alike_bind hloop fun _ => .refl _

theorem alike_injectTrust {source dest : Provider} {header : Schema.Message} {client : String}
    {policy : RetryPolicy} (hs : s.Alike n s') :
    (injectTrust source header dest client policy s).run.Alike n
      (injectTrust source header dest client policy s').run := by
  refine Attempt.alike_bind (Attempt.alike_guard hs (.refl _)) fun trusted => ?_
  exact Attempt.alike_bind (Attempt.alike_lift (RetryPolicy.alike_step hs)) fun _ => .refl _

theorem Provider.alike_lookupUntil {hash : String} {timeout : Duration} {deadline : Nat}
    (hs : s.Alike n s') (rounds : Nat) :
    (p.lookupUntil hash timeout deadline s rounds).Alike n
      (p.lookupUntil hash timeout deadline s' rounds) := by
  induction rounds with
  | zero => exact .refl _
  | succ rounds ih =>
      refine (Alike.refl _).bind fun now => ?_
      refine (Attempt.alike_guard hs (.refl _)).bind fun paused => ?_
      cases paused with
      | error stopped => exact .refl _
      | ok _ =>
          dsimp only
          split
          · exact .refl _
          · refine (Attempt.alike_guard hs (.refl _)).bind fun found => ?_
            cases judgeLookup found with
            | some result => exact .refl _
            | none =>
                cases found with
                | error e => exact (Alike.refl _).bind fun _ => ih
                | ok found => exact ih

theorem Provider.alike_confirm {hash : String} (hs : s.Alike n s') :
    (p.confirm hash s).Alike n (p.confirm hash s') := by
  have hwait : (p.awaitInclusion hash p.config.broadcastTimeout s).run.Alike n
      (p.awaitInclusion hash p.config.broadcastTimeout s').run :=
    Attempt.alike_bind (.refl _) fun start => alike_lookupUntil hs _
  exact hwait.bind fun _ => .refl _

end Unfired

/-- The calls that can be cancelled. -/
inductive CancellableCall where
  | submit (p : Provider) (msgs : List Outgoing) (memo : String) (waitSignal : Signal)
  | send (p : Provider) (msgs : List Outgoing) (memo : String)
  | relay (dest source : Provider) (r : RelayRequest)
  | acknowledge (source dest : Provider) (destHeight sequence : UInt64) (channel port : String)
  | inject (source : Provider) (header : Schema.Message) (dest : Provider) (client : String)
    (policy : RetryPolicy)

namespace CancellableCall

def Result : CancellableCall → Type
  | .submit .. => PendingTx
  | .send .. => TxResponse
  | .relay .. => RelayMessage
  | .acknowledge .. => Any
  | .inject .. => Schema.Message

/-- The call under a signal. -/
def attempt (s : Signal) : (c : CancellableCall) → Attempt c.Result
  | .submit p msgs memo waitSignal => p.submit msgs memo s waitSignal
  | .send p msgs memo => p.send msgs memo s
  | .relay dest source r => relayPacket dest source r s
  | .acknowledge source dest destHeight sequence channel port =>
    relayAcknowledgement source dest destHeight sequence channel port s
  | .inject source header dest client policy => injectTrust source header dest client policy s

theorem heeds_attempt (c : CancellableCall) (s : Signal) :
    (c.attempt s).run.Heeds s fun r => ¬ r.Traffic := by
  cases c with
  | submit p msgs memo waitSignal => exact Provider.heeds_submit
  | send p msgs memo => exact Provider.heeds_send
  | relay dest source r => exact staged_relayPacket.heeds
  | acknowledge source dest destHeight sequence channel port =>
      exact staged_relayAcknowledgement.heeds
  | inject source header dest client policy => exact heeds_injectTrust

theorem alike_attempt {n : Nat} {s s' : Signal} (c : CancellableCall) (hs : s.Alike n s') :
    (c.attempt s).run.Alike n (c.attempt s').run := by
  cases c with
  | submit p msgs memo waitSignal => exact Provider.alike_submit hs (.refl waitSignal)
  | send p msgs memo => exact Provider.alike_send hs
  | relay dest source r => exact staged_relayPacket.alike hs
  | acknowledge source dest destHeight sequence channel port =>
      exact staged_relayAcknowledgement.alike hs
  | inject source header dest client policy => exact alike_injectTrust hs

/-- Once the signal of a call has fired, the call makes no more calls to a node.  A submission that
is caught by it has booked nothing as accepted and never does, waits for nothing any more and fails.
A signal that does not fire could as well not be there. -/
theorem stops_once_fired (n : Nat) :
    (∀ (c : CancellableCall) (F : Set Nat) (es : List Occurrence)
        (m : Moment (Except RelayError c.Result)),
      Moment.Run ⟨F, .running (c.attempt (some n)).run⟩ es m →
        (n ∈ F → ∀ r, .made r ∈ es → ¬ r.Traffic) ∧
        ∀ es₁ es₂, es = es₁ ++ .fired n :: es₂ → ∀ r, .made r ∈ es₂ → ¬ r.Traffic) ∧
    (∀ (p : Provider) (msgs : List Outgoing) (memo : String) (waitSignal : Signal) (F : Set Nat)
        (es es' : List Occurrence) (m : Moment (Except RelayError PendingTx)),
      Moment.Caught n (p.submit msgs memo (some n) waitSignal).run F es es' m →
        (∀ r, .made r ∈ es ++ es' → ¬ r.Accepts) ∧ (∀ r, .made r ∈ es' → r.Instant) ∧
        (∀ result, m.stage = .running (.done result) → result = .error .cancelled) ∧
        ∃ es'', Moment.Run m es'' ⟨m.fired, .running (.done (.error .cancelled))⟩) ∧
    (∀ c : CancellableCall,
      Moment.SameUnless n (c.attempt (some n)).run (c.attempt none).run) ∧
    ∀ (p : Provider) (msgs : List Outgoing) (memo hash : String) (s : Signal),
      Moment.SameUnless n (p.submit msgs memo s (some n)).run (p.submit msgs memo s none).run ∧
      Moment.SameUnless n (p.runJob (.confirm hash (some n))) (p.runJob (.confirm hash none)) := by
  refine ⟨?_, ?_, fun c => Moment.sameUnless_of_alike (c.alike_attempt Signal.alike_none), ?_⟩
  · intro c F es m hr
    refine ⟨hr.made_of_fired (c.heeds_attempt _), ?_⟩
    rintro es₁ es₂ rfl
    exact hr.made_after_fired (c.heeds_attempt _)
  · intro p msgs memo waitSignal F es es' m hcaught
    have hstart : (Stage.running (p.submit msgs memo (some n) waitSignal).run).Stopped n
        Request.Accepts Attempt.IsCancelled :=
      .inr ⟨.rest, _, _, rfl, rfl⟩
    rcases hcaught.stopped Provider.cancelsBefore_submit hstart with ⟨hes, hes', hn, hm⟩
    refine ⟨?_, fun r hr => (hes' _ hr).1, fun result => Moment.result_of_stopped hm, ?_⟩
    · intro r hr
      rcases List.mem_append.mp hr with hbefore | hafter
      · exact hes r hbefore
      · exact (hes' _ hafter).2
    · rcases Moment.exists_run_of_stopped hn hm with ⟨es'', result, hr, rfl⟩
      exact ⟨es'', hr⟩
  · intro p msgs memo hash s
    have hconfirm : (p.runJob (.confirm hash (some n))).Alike n (p.runJob (.confirm hash none)) :=
      (Provider.alike_confirm Signal.alike_none).bind fun _ => .refl _
    exact ⟨Moment.sameUnless_of_alike (Provider.alike_submit (.refl s) Signal.alike_none),
      Moment.sameUnless_of_alike hconfirm⟩

/-- A submission that is cancelled while it waits for the lock, and one that goes on waiting. -/
theorem stops_once_fired_locked : ∃ (p : Provider) (es es' : List Occurrence)
    (m m' : Moment (Except RelayError PendingTx)),
    es = [.made .rest, .answered .rest (), .made (.acquire p)] ∧
    Moment.Run ⟨∅, .running (p.submit [] "" (some 0) none).run⟩ es m ∧
    Moment.Run ⟨∅, .running (p.submit [] "" (some 0) none).run⟩ (es ++ .fired 0 :: es') m' ∧
    m'.stage = .running (.done (.error .cancelled)) ∧
    (∀ r, .made r ∈ es' → ¬ r.Traffic) ∧ (∀ r, .made r ∈ es ++ es' → ¬ r.Accepts) ∧
    ∃ es'' stage, List.Forall₂ (Occurrence.Alike 0) es es'' ∧
      Moment.Run ⟨∅, .running (p.submit [] "" none none).run⟩ es'' ⟨∅, stage⟩ := by
  let p := transferEnd 0 "near"
  have hlive : ¬ Signal.FiredIn ∅ (some 0) := Set.notMem_empty 0
  have hfired : 0 ∈ insert 0 (∅ : Set Nat) := Set.mem_insert 0 ∅
  obtain ⟨next, hsubmit⟩ : ∃ next, (p.submit [] "" (some 0) none).run =
      .watch (some 0) .rest
        (fun _ => .watch (some 0) (.acquire p) next (.done (.error .cancelled)))
        (.done (.error .cancelled)) :=
    ⟨_, rfl⟩
  have hwait : Moment.Run ⟨∅, .running (p.submit [] "" (some 0) none).run⟩
      [.made .rest, .answered .rest (), .made (.acquire p)]
      ⟨∅, .waiting (.acquire p) next (some (some 0, .done (.error .cancelled)))⟩ := by
    rw [hsubmit]
    refine .watched (r := .rest) hlive () ?_
    exact .step (.watch hlive) (.refl _)
  have hend : Moment.Run
      ⟨insert 0 ∅, .waiting (.acquire p) next (some (some 0, .done (.error .cancelled)))⟩
      [.stopped 0 (.acquire p)] ⟨insert 0 ∅, .running (.done (.error .cancelled))⟩ :=
    .step (.interrupt hfired) (.refl _)
  have hcaught := Moment.Caught.suspended hwait trivial hend
  have hwhole := hwait.append (.step (.fire 0) hend)
  obtain ⟨hquiet, hsubmits, hsame, _⟩ := stops_once_fired 0
  have htracks := (hsame (.submit p [] "" none)).1 ∅ _ _ (Set.notMem_empty 0) hwait
  obtain ⟨es'', stage, hes, hr, _⟩ := htracks
  refine ⟨p, _, _, _, _, rfl, hwait, hwhole, rfl, ?_, (hsubmits p _ _ _ _ _ _ _ hcaught).1,
    es'', stage, hes, hr⟩
  exact (hquiet (.submit p [] "" none) ∅ _ _ hwhole).2 _ _ rfl

end CancellableCall

end PacketRelay
