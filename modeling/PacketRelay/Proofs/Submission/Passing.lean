import PacketRelay.Proofs.Program.Passing
import PacketRelay.Proofs.Submission.Recovery
import PacketRelay.Proofs.Tx.Size

/-!
# Submissions that go through

A node that shows a fresh account, finds that a simulation uses no gas and takes the transaction lets
every submission in the direct mode through, if what is sent is not too long.
-/

namespace PacketRelay

open Program
open Schema.Message (ofText ofBytes)

/-- The byte strings that the request sends have lengths of 64 bits. -/
def Request.Sized : Request → Prop
  | .call _ (.broadcast tx) => tx.length < 1 <<< 64
  | .call _ (.abciQuery _ data _ _) => data.length < 1 <<< 64
  | _ => True

theorem RetryScope.LoopRequest.sized {scope : RetryScope} (r : Request)
    (hr : scope.LoopRequest r) : r.Sized := by
  cases r with
  | call q c => exact hr.elim
  | _ => trivial

namespace Provider

variable {p : Provider} {f : TxFactory} {msgs : List Outgoing} {anys : List Any} {memo : String}
  {s waitSignal : Signal}

theorem passes_step {α : Type} {op : Attempt α} {a : α}
    (hop : Passes Request.Sized op.run (.ok a)) :
    Passes Request.Sized (p.config.retry.step s op).run (.ok a) :=
  RetryPolicy.passes_step RetryScope.LoopRequest.sized hop

/-- A query without a proof can be answered with any value. -/
theorem passes_query {path : String} {data : Bytes} (hdata : data.length < 1 <<< 64)
    (value : Bytes) : Passes Request.Sized (p.queryAbci path data 0 false).run
      (.ok ⟨0, "", "", [], value, none, 0⟩) := by
  have hsized : (Request.call p (.abciQuery path data 0 false)).Sized := hdata
  exact Attempt.passes_bind
    (Attempt.passes_request hsized (Except.ok ⟨0, "", "", [], value, none, 0⟩))
    (Attempt.passes_bind (Attempt.passes_pure _) (passes_done _))

theorem passes_prepare :
    Passes Request.Sized (p.prepare p.factory s).run (.ok (p.factoryFor 0 0)) := by
  have haccount : Passes Request.Sized (p.queryAccount "").run (.ok []) := by
    refine Attempt.passes_bind (Attempt.passes_lift (passes_query (by decide) freshAccount)) ?_
    dsimp only
    rw [accountOf_freshAccount]
    exact passes_done _
  have haddress : Passes Request.Sized p.address.run (.ok "") :=
    Attempt.passes_demand (Program.passes_request (r := .address p) trivial (Except.ok ""))
  rw [prepare_factory]
  refine Attempt.passes_bind (passes_step haddress) ?_
  refine Attempt.passes_bind (passes_step (Attempt.passes_bind haccount (Attempt.passes_pure ()))) ?_
  exact Attempt.passes_bind
    (passes_step (Attempt.passes_bind haccount (Attempt.passes_pure (0, 0)))) (Attempt.passes_pure _)

theorem passes_simulate (htx : (p.simulationTx f anys).length < 1 <<< 62) :
    Passes Request.Sized (p.simulate f anys s).run (.ok ([], 0)) := by
  have hquery : (ofBytes 2 (p.simulationTx f anys)).encode.length < 1 <<< 64 := by
    have hlength := Schema.Message.length_encode_ofBytes_le 2 (p.simulationTx f anys)
    omega
  have hgas : p.adjustGas (simulatedGas []) = .ok 0 := by
    simp [adjustGas, PacketRelay.adjustGas, simulatedGas, Schema.Message.message?]
  refine Attempt.passes_bind (passes_step (Attempt.passes_pure _)) ?_
  refine Attempt.passes_bind (passes_step (passes_query hquery [])) ?_
  refine Attempt.passes_bind (a := []) (passes_done _) ?_
  rw [hgas]
  exact Attempt.passes_bind (passes_done _) (Attempt.passes_pure _)

theorem passes_signTx (hmode : f.signMode = .direct) (u : UnsignedTx) :
    Passes Request.Sized (p.signTx f u).run (.ok (u.withSignature [])) := by
  have hdirect : ¬ f.signMode ≠ .direct := not_not_intro hmode
  have hsign : Passes Request.Sized
      (Attempt.demand (request (.sign p (u.signDoc f).encode))).run (.ok []) :=
    Attempt.passes_demand (Program.passes_request (r := .sign p _) trivial (Except.ok []))
  rw [signTx_eq, if_neg hdirect]
  exact Attempt.passes_bind hsign (Attempt.passes_pure _)

theorem passes_assemble (hanys : msgs.mapM Outgoing.toAny = .ok anys) (hmode : f.signMode = .direct)
    (htx : ∀ gas, (p.simulationTx { f with gas := gas } anys).length < 1 <<< 62) :
    ∃ built, built.bytes.length < 1 <<< 62 ∧
      Passes Request.Sized (p.assemble f msgs s).run (.ok built) := by
  have hsimulate : Passes Request.Sized (p.simulate f anys s).run (.ok ([], 0)) :=
    passes_simulate (htx f.gas)
  refine ⟨⟨p.simulationTx { f with gas := max 0 p.config.minGas } anys, f.sequence,
    [f.gasPrice.fee (max 0 p.config.minGas)]⟩, htx _, ?_⟩
  refine Attempt.passes_bind (a := anys) ?_ ?_
  · rw [hanys]
    exact passes_done _
  refine Attempt.passes_bind hsimulate ?_
  refine Attempt.passes_bind (passes_step (Attempt.passes_pure _)) ?_
  refine Attempt.passes_bind (passes_step (passes_signTx hmode _)) ?_
  exact Attempt.passes_bind (passes_step (Attempt.passes_pure _)) (Attempt.passes_pure _)

theorem passes_broadcast_refused {tx : Bytes} {fees : List Coin} {codespace log : String}
    {code : UInt32} (htx : tx.length < 1 <<< 64) (hcode : code ≠ 0) :
    Passes Request.Sized (p.broadcast tx fees s waitSignal).run
      (.error (.ofTxCode codespace code log)) := by
  have hsized : (Request.call p (.broadcast tx)).Sized := htx
  refine Attempt.passes_bind (Attempt.passes_guard trivial
    (Attempt.passes_request hsized (Except.ok ⟨code, codespace, log, [], ""⟩))) ?_
  have hjudged : Passes Request.Sized (p.judgeBroadcast tx fees
      (.ok ⟨code, codespace, log, [], ""⟩)).run (.error (.ofTxCode codespace code log)) := by
    simp only [judgeBroadcast, if_pos hcode]
    exact Attempt.passes_bind (Attempt.passes_request trivial ()) (passes_done _)
  exact hjudged.bind (passes_done _)

section Submit

variable (hanys : msgs.mapM Outgoing.toAny = .ok anys) (hmode : p.config.signMode = .direct)
  (hsize : 2 * (TxFactory.body { p.factory with memo := memo } anys).encode.length +
    32 * p.publicKey.length + 16 * (Bytes.ofText p.config.gasPrice.denom).length < 1 <<< 61)

include hanys hmode hsize

/-- Whatever the cache is, a transaction can be built that is not too long to be sent. -/
theorem exists_passes_build (state : SequenceState) : ∃ st built, built.bytes.length < 1 <<< 62 ∧
    Passes Request.Sized (p.build state msgs memo s) (st, .ok built) := by
  have hmemo : (if memo = "" then "" else memo) = memo := by
    split
    · next hempty => exact hempty.symm
    · rfl
  have htx (sequence gas : UInt64) : (p.simulationTx
      { withMemoAndSequence (p.factoryFor 0 0) memo sequence with gas := gas } anys).length <
        1 <<< 62 := by
    have hlength := UnsignedTx.length_withSignature_le p
      { withMemoAndSequence (p.factoryFor 0 0) memo sequence with gas := gas } anys []
    have hbody : TxFactory.body
        { withMemoAndSequence (p.factoryFor 0 0) memo sequence with gas := gas } anys =
          TxFactory.body { p.factory with memo := memo } anys :=
      congrArg (fun memo => TxFactory.body { p.factory with memo := memo } anys) hmemo
    have hprice : (withMemoAndSequence (p.factoryFor 0 0) memo sequence).gasPrice =
        p.config.gasPrice := rfl
    have hsignature : ([] : Bytes).length = 0 := rfl
    rw [hbody, hprice, hsignature] at hlength
    exact Nat.lt_of_le_of_lt hlength (by omega)
  obtain ⟨built, hbytes, hassemble⟩ :=
    passes_assemble (s := s) hanys hmode (htx (state.learn (p.factoryFor 0 0)).next)
  exact ⟨state.learn (p.factoryFor 0 0), built, hbytes,
    passes_prepare.bind (hassemble.bind (passes_done _))⟩

/-- Whatever the cache is, the chain can refuse what a submission under the lock broadcasts, with any
code but zero. -/
theorem exists_passes_refusal (state : SequenceState) (codespace log : String) {code : UInt32}
    (hcode : code ≠ 0) : ∃ st : SequenceState,
    Passes Request.Sized (p.submitLocked state msgs memo s waitSignal)
      (st.afterFailure (.ofTxCode codespace code log), .error (.ofTxCode codespace code log)) := by
  obtain ⟨st, built, hbytes, hbuild⟩ :=
    exists_passes_build (s := s) hanys hmode hsize state
  exact ⟨st, hbuild.bind ((passes_broadcast_refused (by omega) hcode).bind (passes_done _))⟩

end Submit

end Provider

end PacketRelay
