import PacketRelay.Proofs.Retry.Refinement
import PacketRelay.Proofs.Retry.Reporting
import PacketRelay.Proofs.Submission.Outcome

/-!
# Steps in which a submission fails

A transaction is built in steps, each of which may be attempted more than once.  A build that fails
does so in one of its steps, or in one of the checks between them.  After a failed step the submission
takes over the sequence that a mismatch names if an attempt of the step met one, and else leaves the
cache as the account look-up left it.
-/

namespace PacketRelay

open Program

namespace Attempt

/-- The program fails in the step `op`: after `before` comes the step, which exchanges `g` and ends
with the error. -/
inductive FailsInStep (policy : RetryPolicy) (s : Signal) {β : Type} (op : Attempt β) :
    {α : Type} → Attempt α → (before g : List Exchange) → RelayError → Prop where
  | here {g : List Exchange} {e : RelayError} :
    (policy.step s op).run.Yields g (.error e) → FailsInStep policy s op (policy.step s op) [] g e
  | first {α γ : Type} {x : Attempt α} {f : α → Attempt γ} {before g : List Exchange}
      {e : RelayError} :
    FailsInStep policy s op x before g e → FailsInStep policy s op (x >>= f) before g e
  | later {α γ : Type} {x : Attempt α} {f : α → Attempt γ} {h before g : List Exchange} {a : α}
      {e : RelayError} :
    x.run.Yields h (.ok a) → FailsInStep policy s op (f a) before g e →
      FailsInStep policy s op (x >>= f) (h ++ before) g e

variable {α β γ : Type} {policy : RetryPolicy} {s : Signal} {op : Attempt β} {x : Attempt α}
  {before g : List Exchange} {e : RelayError}

theorem FailsInStep.yields (hx : FailsInStep policy s op x before g e) :
    x.run.Yields (before ++ g) (.error e) ∧ (policy.step s op).run.Yields g (.error e) := by
  induction hx with
  | here hstep => exact ⟨hstep, hstep⟩
  | first _ ih => exact ⟨yields_bind_iff.mpr (.inl ⟨_, ih.1, rfl⟩), ih.2⟩
  | later hfirst _ ih =>
      refine ⟨yields_bind_iff.mpr (.inr ⟨_, _, _, ?_, hfirst, ih.1⟩), ih.2⟩
      exact List.append_assoc _ _ _

/-- Whenever the program fails, it does so in a step or for a reason that is checked between steps. -/
def Stepwise (policy : RetryPolicy) (s : Signal) (Reason : RelayError → Prop) (x : Attempt α) :
    Prop :=
  ∀ h e, x.run.Yields h (.error e) → Reason e ∨
    ∃ (β : Type) (op : Attempt β) (before g : List Exchange),
      h = before ++ g ∧ FailsInStep policy s op x before g e

namespace Stepwise

variable {Reason : RelayError → Prop}

theorem step (op : Attempt α) : Stepwise policy s Reason (policy.step s op) :=
  fun h _ hy => .inr ⟨α, op, [], h, rfl, .here hy⟩

theorem check {r : Except RelayError α} (hr : ∀ e, r = .error e → Reason e) :
    Stepwise policy s Reason (ofExcept r) :=
  fun _ e hy => .inl (hr e (yields_ofExcept_iff.mp hy).2.symm)

theorem known (a : α) : Stepwise policy s Reason (pure a) := by
  intro h e hy
  cases (yields_pure_iff.mp hy).2

theorem bind {f : α → Attempt γ} (hx : Stepwise policy s Reason x)
    (hf : ∀ a, Stepwise policy s Reason (f a)) : Stepwise policy s Reason (x >>= f) := by
  intro h e hy
  obtain ⟨e', hfirst, he⟩ | ⟨h₁, a, h₂, rfl, hfirst, hrest⟩ := yields_bind_iff.mp hy
  · obtain rfl := Except.error.inj he
    obtain hreason | ⟨β, op, before, g, rfl, hfails⟩ := hx h e hfirst
    · exact .inl hreason
    · exact .inr ⟨β, op, before, g, rfl, .first hfails⟩
  · obtain hreason | ⟨β, op, before, g, rfl, hfails⟩ := hf a h₂ e hrest
    · exact .inl hreason
    · exact .inr ⟨β, op, h₁ ++ before, g, (List.append_assoc _ _ _).symm, .later hfirst hfails⟩

end Stepwise

end Attempt

namespace Provider

open Attempt (FailsInStep Stepwise)

variable {p : Provider} {s waitSignal : Signal} {msgs : List Outgoing} {memo : String}
  {state st : SequenceState} {before g h : List Exchange} {e : RelayError} {β : Type}
  {op : Attempt β}

/-- What is checked between the steps of a build: the messages, the answer to the simulation and the
gas that it tells of. -/
inductive CheckFails (p : Provider) (msgs : List Outgoing) : RelayError → Prop where
  | message {e : RelayError} : msgs.mapM Outgoing.toAny = .error e → CheckFails p msgs e
  | response {value : Bytes} {e : RelayError} :
    decodeAnswer .simulateResponse value = .error e → CheckFails p msgs e
  | gas {used : UInt64} {e : RelayError} : p.adjustGas used = .error e → CheckFails p msgs e

/-- A build fails in the step `op`: after `before` comes the step, which exchanges `g` and ends with
the error. -/
inductive BuildFailsInStep (p : Provider) (state : SequenceState) (msgs : List Outgoing)
    (memo : String) (s : Signal) {β : Type} (op : Attempt β) :
    (before g : List Exchange) → RelayError → Prop where
  | preparing {before g : List Exchange} {e : RelayError} :
    FailsInStep p.config.retry s op (p.prepare p.factory s) before g e →
      BuildFailsInStep p state msgs memo s op before g e
  | assembling {h before g : List Exchange} {f : TxFactory} {e : RelayError} :
    (p.prepare p.factory s).run.Yields h (.ok f) →
      FailsInStep p.config.retry s op
        (p.assemble (withMemoAndSequence f memo (state.learn f).next) msgs s) before g e →
      BuildFailsInStep p state msgs memo s op (h ++ before) g e

theorem stepwise_prepare (msgs : List Outgoing) :
    Stepwise p.config.retry s (p.CheckFails msgs) (p.prepare p.factory s) := by
  rw [prepare_factory]
  exact .bind (.step _) fun _ => .bind (.step _) fun _ => .bind (.step _) fun _ => .known _

theorem stepwise_simulate (f : TxFactory) (anys : List Any) (msgs : List Outgoing) :
    Stepwise p.config.retry s (p.CheckFails msgs) (p.simulate f anys s) := by
  refine .bind (.step _) fun tx => .bind (.step _) fun a => .bind (.check ?_) fun response =>
    .bind (.check ?_) fun gas => .known _
  · exact fun _ => .response
  · exact fun _ => .gas

theorem stepwise_assemble (f : TxFactory) (msgs : List Outgoing) :
    Stepwise p.config.retry s (p.CheckFails msgs) (p.assemble f msgs s) := by
  refine .bind (.check fun _ => .message) fun anys => .bind (stepwise_simulate f anys msgs) fun _ => ?_
  exact .bind (.step _) fun _ => .bind (.step _) fun _ => .bind (.step _) fun _ => .known _

/-- A build that fails does so in a step, or for a reason that is checked between steps. -/
theorem yields_build_error (hy : (p.build state msgs memo s).Yields h (st, .error e)) :
    p.CheckFails msgs e ∨ ∃ (β : Type) (op : Attempt β) (before g : List Exchange),
      h = before ++ g ∧ p.BuildFailsInStep state msgs memo s op before g e := by
  obtain ⟨e', hprepare, _, he⟩ | ⟨f, h₁, h₂, rfl, hprepare, rfl, hassemble⟩ := yields_build hy
  · obtain rfl := Except.error.inj he
    obtain hreason | ⟨β, op, before, g, rfl, hfails⟩ := stepwise_prepare msgs h e hprepare
    · exact .inl hreason
    · exact .inr ⟨β, op, before, g, rfl, .preparing hfails⟩
  · obtain hreason | ⟨β, op, before, g, rfl, hfails⟩ := stepwise_assemble _ msgs h₂ e hassemble
    · exact .inl hreason
    · exact .inr ⟨β, op, h₁ ++ before, g, (List.append_assoc _ _ _).symm,
        .assembling hprepare hfails⟩

theorem BuildFailsInStep.yields (hf : p.BuildFailsInStep state msgs memo s op before g e) :
    (∃ st, (p.build state msgs memo s).Yields (before ++ g) (st, .error e)) ∧
      (p.config.retry.step s op).run.Yields g (.error e) := by
  cases hf with
  | preparing hfails =>
      obtain ⟨hprepare, hstep⟩ := hfails.yields
      refine ⟨⟨state, yields_bind_iff.mpr ⟨_, .error e, [], ?_, hprepare, .refl _⟩⟩, hstep⟩
      exact (List.append_nil _).symm
  | @assembling h before g f e hprepare hfails =>
      obtain ⟨hassemble, hstep⟩ := hfails.yields
      refine ⟨⟨state.learn f, yields_bind_iff.mpr ⟨h, .ok f, before ++ g, ?_, hprepare, ?_⟩⟩, hstep⟩
      · exact List.append_assoc _ _ _
      · refine yields_bind_iff.mpr ⟨before ++ g, .error e, [], ?_, hassemble, .refl _⟩
        exact (List.append_nil _).symm

/-- A submission whose build failed in a step gives back the lock, and can do nothing else. -/
theorem BuildFailsInStep.yields_submit_iff {tail : List Exchange} {r : Except RelayError PendingTx}
    (hf : p.BuildFailsInStep state msgs memo s op before g e) :
    (p.submit msgs memo s waitSignal).run.Yields
        (.answered .rest () :: .answered (.acquire p) state :: (before ++ g ++ tail)) r ↔
      tail = [.answered (.release p ((state.afterLookup (before ++ g)).afterFailure e)) ()] ∧
        r = .error e := by
  obtain ⟨⟨st, hbuild⟩, _⟩ := hf.yields
  obtain ⟨rfl, _⟩ := yields_build_state hbuild
  have hlock : (Attempt.guard s (Attempt.request (.acquire p))).run.Yields
      [.answered .rest (), .answered (.acquire p) state] (.ok state) :=
    Attempt.yields_guard_request s (.acquire p) state
  have hrelease : (Attempt.request
      (.release p ((state.afterLookup (before ++ g)).afterFailure e)) >>= fun _ =>
        Attempt.ofExcept (.error e)).run.Yields tail r ↔
      tail = [.answered (.release p ((state.afterLookup (before ++ g)).afterFailure e)) ()] ∧
        r = .error e := by
    rw [Attempt.yields_request_bind_iff]
    constructor
    · rintro ⟨⟨⟩, h', rfl, hend⟩
      obtain ⟨rfl, rfl⟩ := Attempt.yields_ofExcept_iff.mp hend
      exact ⟨rfl, rfl⟩
    · rintro ⟨rfl, rfl⟩
      exact ⟨(), [], rfl, Attempt.yields_ofExcept_iff.mpr ⟨rfl, rfl⟩⟩
  rw [← hrelease]
  constructor
  · intro hy
    rw [submit, ExceptT.run_bind, bind_eq] at hy
    have hlocked := hlock.of_bind hy
    dsimp only at hlocked
    rw [ExceptT.run_bind_lift, bind_eq, submitLocked, bind_eq, bind_assoc] at hlocked
    exact hbuild.of_bind hlocked
  · intro hy
    refine Attempt.yields_bind_iff.mpr (.inr ⟨_, state, before ++ g ++ tail, rfl, hlock, ?_⟩)
    rw [ExceptT.run_bind_lift, bind_eq, submitLocked, bind_eq, bind_assoc]
    exact yields_bind_iff.mpr ⟨before ++ g, _, tail, rfl, hbuild, hy⟩

/-- A step that meets a sequence mismatch ends with it, and reports that very error.  Whatever else a
step reports is no mismatch, the report on all its errors included.  So after a failed step a
submission takes over what a mismatch names just if an attempt of the step met one, and else leaves
the cache as the account look-up left it.  A build fails in a step, or in a check between steps. -/
theorem steps_report_mismatches :
    (∀ (α : Type) (policy : RetryPolicy) (s : Signal) (operation : Nat → Attempt α)
      (h : List Exchange) (r : Except RelayError α),
      (policy.run .step s operation).run.Yields h r →
        (∀ before n g e t, policy.Call .step s operation h before n g (.error e) t →
          e.isSequenceMismatch = true → t = [] ∧ r = .error e) ∧
        ((∀ e, policy.Met .step s operation h e → e.isSequenceMismatch = false) →
          ∀ e, r = .error e → e.isSequenceMismatch = false)) ∧
    (∀ (p : Provider) (msgs : List Outgoing) (memo : String) (s waitSignal : Signal)
      (state : SequenceState) (β : Type) (op : Attempt β) (before g tail : List Exchange)
      (e : RelayError) (r : Except RelayError PendingTx),
      p.BuildFailsInStep state msgs memo s op before g e →
      (p.submit msgs memo s waitSignal).run.Yields
        (.answered .rest () :: .answered (.acquire p) state :: (before ++ g ++ tail)) r →
      r = .error e ∧
        (∀ e', p.config.retry.Met .step s (fun _ => op) g e' → e'.isSequenceMismatch = true →
          e' = e ∧
          tail = [.answered (.release p ((state.afterLookup (before ++ g)).resync e')) ()]) ∧
        ((∀ e', p.config.retry.Met .step s (fun _ => op) g e' → e'.isSequenceMismatch = false) →
          tail = [.answered (.release p (state.afterLookup (before ++ g))) ()])) ∧
    ∀ (p : Provider) (msgs : List Outgoing) (memo : String) (s : Signal) (state st : SequenceState)
      (h : List Exchange) (e : RelayError), (p.build state msgs memo s).Yields h (st, .error e) →
      p.CheckFails msgs e ∨ ∃ (β : Type) (op : Attempt β) (before g : List Exchange),
        h = before ++ g ∧ p.BuildFailsInStep state msgs memo s op before g e := by
  refine ⟨?_, ?_, fun p msgs memo s state st h e hy => yields_build_error hy⟩
  · intro α policy s operation h r hy
    refine ⟨fun before n g e t hc hmismatch => hc.ends_step_of_mismatch hy hmismatch, ?_⟩
    rintro hnone e rfl
    exact RetryPolicy.not_mismatch_of_yields hy hnone
  · intro p msgs memo s waitSignal state β op before g tail e r hf hy
    obtain ⟨rfl, rfl⟩ := hf.yields_submit_iff.mp hy
    obtain ⟨_, hstep⟩ := hf.yields
    refine ⟨rfl, ?_, ?_⟩
    · rintro e' ⟨b, n, g', t, hc⟩ hmismatch
      obtain ⟨_, he⟩ := hc.ends_step_of_mismatch hstep hmismatch
      obtain rfl := Except.error.inj he
      exact ⟨rfl, by rw [SequenceState.afterFailure, if_pos hmismatch]⟩
    · intro hnone
      have hmismatch := RetryPolicy.not_mismatch_of_yields hstep hnone
      rw [SequenceState.afterFailure, hmismatch, if_neg Bool.false_ne_true]

/-- An operation that meets one half of the wording of a mismatch, and then the other half. -/
def halves (n : Nat) : Attempt Unit :=
  Attempt.ofExcept (.error (.rpc (if n = 1 then "incorrect account" else "sequence")))

theorem yields_halves (n : Nat) : (Attempt.guard none (halves n)).run.Yields [.answered .rest ()]
    (.error (.rpc (if n = 1 then "incorrect account" else "sequence"))) :=
  Attempt.yields_guard_of (.refl _) (List.forall_mem_nil _)

theorem met_halves {h : List Exchange} (hmet : RetryPolicy.thrice.Met .step none halves h e) :
    e.isSequenceMismatch = false := by
  obtain ⟨before, n, g, t, hc⟩ := hmet
  cases Attempt.yields_guard hc.yields with
  | finished hy =>
      obtain rfl := Except.error.inj (Attempt.yields_ofExcept_iff.mp hy).2
      split <;> decide +kernel
  | fired hsignal => cases hsignal
  | dropped hsignal _ => cases hsignal

/-- The failure of the account query on a chain that expects the sequence seven. -/
def expectsSeven : RelayError := .abciQuery "sdk" 32 (mismatchLog 7 5)

def addressStep : List Exchange :=
  [.answered (.attempting 1) (), .answered .rest (), .answered (.address twice) (.ok "")]

/-- The account query of the second step. -/
def accountCall : List Exchange :=
  [.answered .rest (),
    .answered (.call twice (.abciQuery accountPath (Schema.Message.ofText 1 "").encode 0 false))
      (.ok ⟨32, "sdk", mismatchLog 7 5, [], [], none, 0⟩)]

def accountStep : List Exchange := .answered (.attempting 1) () :: accountCall

theorem yields_accountCall : (Attempt.guard none (twice.ensureAccount "")).run.Yields accountCall
    (.error expectsSeven) := by
  refine Attempt.yields_guard_of (Attempt.yields_bind_iff.mpr (.inl ⟨expectsSeven, ?_, rfl⟩))
    (List.forall_mem_singleton.mpr trivial)
  refine Attempt.yields_bind_iff.mpr (.inr ⟨_, .error expectsSeven, [], (List.append_nil _).symm,
    Attempt.yields_outcome_iff.mpr ⟨_, ?_, rfl⟩, ?_⟩)
  · exact Attempt.yields_request_bind_iff.mpr
      ⟨.ok _, [], rfl, Attempt.yields_ofExcept_iff.mpr ⟨rfl, rfl⟩⟩
  · dsimp only
    rw [if_neg (by decide +kernel)]
    exact .refl _

theorem met_accountStep : twice.config.retry.Met .step none (fun _ => twice.ensureAccount "")
    accountStep expectsSeven := ⟨_, 1, _, [], .first rfl yields_accountCall⟩

theorem twice_build_fails : twice.BuildFailsInStep ⟨10, 0⟩ [] "" none (twice.ensureAccount "")
    addressStep accountStep expectsSeven := by
  have hask : twice.address.run.Yields [.answered (.address twice) (.ok "")] (.ok "") :=
    yields_request_iff.mpr rfl
  have haddress : (twice.config.retry.step none twice.address).run.Yields addressStep (.ok "") :=
    RetryPolicy.yields_attemptsFrom_of_ok
      (Attempt.yields_guard_of hask (List.forall_mem_singleton.mpr trivial))
  have hstep : (twice.config.retry.step none (twice.ensureAccount "")).run.Yields accountStep
      (.error expectsSeven) :=
    RetryPolicy.yields_attemptsFrom_of_isFinal yields_accountCall (by decide +kernel)
  refine .preparing ?_
  rw [prepare_factory, ← List.append_nil addressStep]
  exact .later haddress (.first (.here hstep))

/-- All errors of a step are reported, and their texts are joined to no mismatch.  In a submission
the account query of a step is answered with a mismatch that names seven, and leaves seven in the
cache. -/
theorem steps_report_mismatches_joined :
    (∃ h e, (RetryPolicy.thrice.run .step none halves).run.Yields h (.error e) ∧
      e.message = "all 3 attempts failed: rpc error: incorrect account; rpc error: sequence; " ++
        "rpc error: sequence" ∧ e.isSequenceMismatch = false) ∧
    (twice.submit [] "" none none).run.Yields
      (.answered .rest () :: .answered (.acquire twice) ⟨10, 0⟩ ::
        (addressStep ++ accountStep ++ [.answered (.release twice ⟨7, 0⟩) ()]))
      (.error expectsSeven) := by
  constructor
  · have hrun : (RetryPolicy.thrice.attemptsFrom .step none halves 2 1 []).Yields _ _ :=
      RetryPolicy.yields_attemptsFrom_of_error (yields_halves 1) (by decide +kernel)
        (RetryPolicy.yields_attemptsFrom_of_error (yields_halves 2) (by decide +kernel)
          (RetryPolicy.yields_attemptsFrom_of_exhausted (yields_halves 3) (by decide +kernel)))
    refine ⟨_, _, hrun, by decide +kernel, ?_⟩
    exact (steps_report_mismatches.1 Unit _ _ _ _ _ hrun).2 (fun e => met_halves) _ rfl
  · let found : SequenceState := ⟨10, 0⟩
    let state := found.afterLookup (addressStep ++ accountStep)
    have hsubmit : (twice.submit [] "" none none).run.Yields
        (.answered .rest () :: .answered (.acquire twice) found :: (addressStep ++ accountStep ++
          [.answered (.release twice (state.afterFailure expectsSeven)) ()]))
        (.error expectsSeven) := twice_build_fails.yields_submit_iff.mpr ⟨rfl, rfl⟩
    obtain ⟨_, hmismatch, _⟩ :=
      steps_report_mismatches.2.1 _ _ _ _ none _ _ _ _ _ _ _ _ twice_build_fails hsubmit
    obtain ⟨_, htail⟩ := hmismatch _ met_accountStep (by decide +kernel)
    have hseven : state.resync expectsSeven = ⟨7, 0⟩ := by decide +kernel
    rwa [htail, hseven] at hsubmit

end Provider

end PacketRelay
