import PacketRelay.Proofs.Error.Mismatch
import PacketRelay.Proofs.Submission.Building

/-!
# A chain that expects a sequence

The chain takes a transaction with the expected sequence and turns every other one down, in
simulation or at the broadcast, in words that name the expected sequence.  Its account look-ups may
lag behind.  Nothing else fails and no signal fires.
-/

namespace PacketRelay

open Program
open Schema.Message (ofBytes)

namespace Provider

/-- The answer shows an account whose sequence is at most `expected`. -/
def ShowsAccount (expected : UInt64) (answer : Except RelayError QueryAnswer) : Prop :=
  ∃ a account, answer = .ok a ∧ a.code = 0 ∧
    (∀ address, accountOf address a.value = .ok account) ∧ account.number 4 ≤ expected

/-- The answer shows a use of gas that the provider can pay. -/
def ShowsGas (p : Provider) (answer : Except RelayError QueryAnswer) : Prop :=
  ∃ a response gas, answer = .ok a ∧ a.code = 0 ∧
    decodeAnswer .simulateResponse a.value = .ok response ∧
    p.adjustGas (simulatedGas response) = .ok gas

/-- The answer to a simulation turns its sequence down. -/
def RejectsSimulation (expected got : UInt64) (answer : Except RelayError QueryAnswer) : Prop :=
  ∃ a, answer = .ok a ∧ a.codespace = "sdk" ∧ a.code = 32 ∧ a.log = mismatchLog expected got

/-- The answer to a broadcast turns its sequence down. -/
def RejectsBroadcast (expected got : UInt64)
    (answer : Except BroadcastFailure BroadcastAnswer) : Prop :=
  ∃ a, (answer = .ok a ∨ ∃ error, answer = .error ⟨error, some a⟩) ∧ a.codespace = "sdk" ∧
    a.code = 32 ∧ a.log = mismatchLog expected got

/-- What a chain that expects a sequence answers to the provider. -/
def Obeys (p : Provider) (expected : UInt64) : Exchange → Prop
  | .stopped .. => False
  | .answered (.address _) r => ∃ a, r = .ok a
  | .answered (.sign ..) r => ∃ a, r = .ok a
  | .answered (.call _ (.abciQuery path data _ _)) r =>
    (path = accountPath → ShowsAccount expected r) ∧
      (path = simulatePath → ∀ tx got, data = (ofBytes 2 tx).encode → SignedWith got tx →
        p.ShowsGas r ∨ got ≠ expected ∧ RejectsSimulation expected got r)
  | .answered (.call _ (.broadcast tx)) r => ∀ got, SignedWith got tx →
    if got = expected then ∃ a, r = .ok a ∧ a.code = 0 else RejectsBroadcast expected got r
  | _ => True

variable {p : Provider} {expected : UInt64} {s : Signal} {h : List Exchange}

theorem Obeys.isAnswer (x : Exchange) (hx : p.Obeys expected x) : x.IsAnswer := by
  cases x with
  | answered r a => trivial
  | stopped n r => exact hx.elim

/-- If the failures of a step are final, it makes one attempt. -/
theorem yields_step_once {α : Type} {op : Attempt α} {r : Except RelayError α}
    (hfinal : ∀ h' e, (∀ x ∈ h', p.Obeys expected x) → op.run.Yields h' (.error e) →
      RetryScope.step.isFinal e = true)
    (hy : (p.config.retry.step s op).run.Yields h r) (hh : ∀ x ∈ h, p.Obeys expected x) :
    ∃ h', (∀ x ∈ h', p.Obeys expected x) ∧ op.run.Yields h' r := by
  obtain ⟨h', rfl, hop⟩ := (RetryPolicy.yields_attemptsFrom hy).once Obeys.isAnswer hh hfinal
  exact ⟨h', fun x hx => hh x (by simp [hx]), hop⟩

theorem yields_address {r : Except RelayError String} (hy : p.address.run.Yields h r)
    (hh : ∀ x ∈ h, p.Obeys expected x) : ∃ sender, r = .ok sender := by
  have hreq : (request (.address p)).Yields h r := hy
  obtain rfl := yields_request_iff.mp hreq
  exact hh (.answered (.address p) r) List.mem_cons_self

/-- Of a query without a proof only a code other than zero makes an error. -/
theorem yields_unproven {path : String} {data : Bytes} {r : Except RelayError QueryAnswer}
    (hy : (p.queryAbci path data 0 false).run.Yields h r) :
    ∃ answer, .answered (.call p (.abciQuery path data 0 false)) answer ∈ h ∧
      ∀ a, answer = .ok a →
        r = if a.code = 0 then .ok a else .error (.abciQuery a.codespace a.code a.log) := by
  obtain ⟨a, rfl, rfl⟩ | ⟨e, rfl, rfl⟩ := yields_queryAbci hy
  · refine ⟨.ok a, List.mem_cons_self, ?_⟩
    rintro _ ⟨⟩
    by_cases hcode : a.code = 0 <;> simp [checkAnswer, hcode]
  · refine ⟨.error e, List.mem_cons_self, ?_⟩
    rintro _ ⟨⟩

theorem yields_queryAccount {address : String} {r : Except RelayError Schema.Message}
    (hy : (p.queryAccount address).run.Yields h r) (hh : ∀ x ∈ h, p.Obeys expected x) :
    ∃ account, r = .ok account ∧ account.number 4 ≤ expected := by
  obtain ⟨e, hquery, rfl⟩ | ⟨h₁, x, h₂, rfl, hquery, hy₁⟩ := Attempt.yields_bind_iff.mp hy
  · obtain ⟨_, _, he⟩ := Attempt.yields_outcome_iff.mp hquery
    cases he
  obtain ⟨x, hquery, hx⟩ := Attempt.yields_outcome_iff.mp hquery
  obtain rfl := Except.ok.inj hx
  obtain ⟨answer, hmem, hr⟩ := yields_unproven hquery
  obtain ⟨a, account, ha, hcode, haccount, hle⟩ :=
    (hh _ (List.mem_append_left _ hmem)).1 rfl
  have hx := hr a ha
  rw [if_pos hcode] at hx
  subst hx
  obtain ⟨_, rfl⟩ := Attempt.yields_ofExcept_iff.mp hy₁
  exact ⟨account, haccount address, hle⟩

theorem yields_accountNumberSequence {address : String} {r : Except RelayError (UInt64 × UInt64)}
    (hy : (p.accountNumberSequence address).run.Yields h r)
    (hh : ∀ x ∈ h, p.Obeys expected x) :
    ∃ number sequence, r = .ok (number, sequence) ∧ sequence ≤ expected := by
  obtain ⟨e, hquery, rfl⟩ | ⟨h₁, account, h₂, rfl, hquery, hy₁⟩ := Attempt.yields_bind_iff.mp hy
  · obtain ⟨_, he, _⟩ := yields_queryAccount hquery hh
    cases he
  · obtain ⟨_, hok, hle⟩ := yields_queryAccount hquery
      fun x hx => hh x (List.mem_append_left _ hx)
    obtain rfl := Except.ok.inj hok
    exact ⟨_, _, (Attempt.yields_pure_iff.mp hy₁).2, hle⟩

theorem yields_ensureAccount {address : String} {r : Except RelayError Unit}
    (hy : (p.ensureAccount address).run.Yields h r) (hh : ∀ x ∈ h, p.Obeys expected x) :
    r = .ok () := by
  obtain ⟨e, hquery, rfl⟩ | ⟨h₁, account, h₂, rfl, _, hy₁⟩ := Attempt.yields_bind_iff.mp hy
  · obtain ⟨_, he, _⟩ := yields_queryAccount hquery hh
    cases he
  · exact (Attempt.yields_pure_iff.mp hy₁).2

/-- A step whose operation cannot fail yields what its operation yields. -/
theorem yields_step_ok_of {α : Type} {op : Attempt α} {r : Except RelayError α}
    {P : Except RelayError α → Prop}
    (hop : ∀ h' x, (∀ y ∈ h', p.Obeys expected y) → op.run.Yields h' x → P x ∧ ∃ a, x = .ok a)
    (hy : (p.config.retry.step s op).run.Yields h r) (hh : ∀ x ∈ h, p.Obeys expected x) :
    P r ∧ ∃ a, r = .ok a := by
  obtain ⟨h', hh', hy'⟩ := yields_step_once (fun h' e hh' hy' => by
    obtain ⟨_, _, he⟩ := hop h' _ hh' hy'
    cases he) hy hh
  exact hop h' r hh' hy'

theorem yields_prepare {r : Except RelayError TxFactory}
    (hy : (p.prepare p.factory s).run.Yields h r) (hh : ∀ x ∈ h, p.Obeys expected x) :
    ∃ number sequence, r = .ok (p.factoryFor number sequence) ∧ sequence ≤ expected := by
  rw [prepare_factory] at hy
  obtain ⟨e, haddress, rfl⟩ | ⟨h₁, sender, h₂, rfl, _, hy₁⟩ := Attempt.yields_bind_iff.mp hy
  · obtain ⟨_, _, he⟩ := yields_step_ok_of (P := fun _ => True)
      (fun h' x hh' hx => ⟨trivial, yields_address hx hh'⟩) haddress hh
    cases he
  have hh₂ : ∀ x ∈ h₂, p.Obeys expected x := fun x hx => hh x (List.mem_append_right _ hx)
  obtain ⟨e, hensure, rfl⟩ | ⟨h₂, _, h₃, rfl, _, hy₂⟩ := Attempt.yields_bind_iff.mp hy₁
  · obtain ⟨_, _, he⟩ := yields_step_ok_of (P := fun _ => True)
      (fun h' x hh' hx => ⟨trivial, (), yields_ensureAccount hx hh'⟩) hensure hh₂
    cases he
  have hh₃ : ∀ x ∈ h₃, p.Obeys expected x := fun x hx => hh₂ x (List.mem_append_right _ hx)
  have hlookup {g : List Exchange} {x : Except RelayError (UInt64 × UInt64)}
      (hg : ∀ y ∈ g, p.Obeys expected y)
      (hx : (p.config.retry.step s (p.accountNumberSequence sender)).run.Yields g x) :
      ∃ number sequence, x = .ok (number, sequence) ∧ sequence ≤ expected := by
    refine (yields_step_ok_of (P := fun x => ∃ number sequence,
      x = .ok (number, sequence) ∧ sequence ≤ expected) (fun h' x hh' hx => ?_) hx hg).1
    obtain ⟨number, sequence, rfl, hle⟩ := yields_accountNumberSequence hx hh'
    exact ⟨⟨number, sequence, rfl, hle⟩, _, rfl⟩
  obtain ⟨e, hnumber, rfl⟩ | ⟨h₃, account, h₄, rfl, hnumber, hy₃⟩ :=
    Attempt.yields_bind_iff.mp hy₂
  · obtain ⟨_, _, he, _⟩ := hlookup hh₃ hnumber
    cases he
  · obtain ⟨number, sequence, hok, hle⟩ :=
      hlookup (fun x hx => hh₃ x (List.mem_append_left _ hx)) hnumber
    obtain rfl := Except.ok.inj hok
    exact ⟨number, sequence, (Attempt.yields_pure_iff.mp hy₃).2, hle⟩

theorem yields_step_pure_eq {α : Type} {a : α} {r : Except RelayError α}
    (hy : (p.config.retry.step s (pure a)).run.Yields h r) (hh : ∀ x ∈ h, p.Obeys expected x) :
    r = .ok a :=
  (yields_step_ok_of (P := fun x => x = .ok a)
    (fun _ _ _ hx => ⟨(Attempt.yields_pure_iff.mp hx).2, a, (Attempt.yields_pure_iff.mp hx).2⟩)
    hy hh).1

/-- The answer shows a use of gas, or the sequence `got` was wrong and it names the expected one. -/
def Simulates (p : Provider) (expected got : UInt64) (x : Except RelayError QueryAnswer) : Prop :=
  (∃ a response gas, x = .ok a ∧ decodeAnswer .simulateResponse a.value = .ok response ∧
    p.adjustGas (simulatedGas response) = .ok gas) ∨
  got ≠ expected ∧ ∃ e, x = .error e ∧ e.Expects expected

theorem yields_simulationQuery {tx : Bytes} {got : UInt64} {x : Except RelayError QueryAnswer}
    (hsigned : SignedWith got tx)
    (hx : (p.queryAbci simulatePath (ofBytes 2 tx).encode 0 false).run.Yields h x)
    (hh : ∀ y ∈ h, p.Obeys expected y) : p.Simulates expected got x := by
  obtain ⟨answer, hmem, hr⟩ := yields_unproven hx
  rcases (hh _ hmem).2 rfl tx got rfl hsigned with
    ⟨a, response, gas, rfl, hcode, hresponse, hgas⟩ | ⟨hne, a, rfl, hspace, hcode, hlog⟩
  · refine .inl ⟨a, response, gas, ?_, hresponse, hgas⟩
    rw [hr a rfl, if_pos hcode]
  · have hcode' : a.code ≠ 0 := by
      rw [hcode]
      decide
    refine .inr ⟨hne, _, (hr a rfl).trans (if_neg hcode'), ?_⟩
    rw [hspace, hcode, hlog]
    exact RelayError.expects_abciQuery expected got

theorem yields_simulationStep {tx : Bytes} {got : UInt64} {x : Except RelayError QueryAnswer}
    (hsigned : SignedWith got tx)
    (hx : (p.config.retry.step s
      (p.queryAbci simulatePath (ofBytes 2 tx).encode 0 false)).run.Yields h x)
    (hh : ∀ y ∈ h, p.Obeys expected y) : p.Simulates expected got x := by
  have hfinal (g : List Exchange) (e : RelayError) (hg : ∀ y ∈ g, p.Obeys expected y)
      (he : (p.queryAbci simulatePath (ofBytes 2 tx).encode 0 false).run.Yields g (.error e)) :
      RetryScope.step.isFinal e = true := by
    rcases yields_simulationQuery hsigned he hg with ⟨_, _, _, hok, _⟩ | ⟨_, e', he', hexpects⟩
    · cases hok
    · cases he'
      exact hexpects.isFinal_step
  obtain ⟨g, hg, hquery⟩ := yields_step_once hfinal hx hh
  exact yields_simulationQuery hsigned hquery hg

/-- A simulation succeeds, or it is told the expected sequence. -/
theorem yields_simulate {f : TxFactory} {msgs : List Any}
    {r : Except RelayError (Schema.Message × UInt64)}
    (hy : (p.simulate f msgs s).run.Yields h r) (hh : ∀ x ∈ h, p.Obeys expected x) :
    (∃ answer, r = .ok answer) ∨
      f.sequence ≠ expected ∧ ∃ e, r = .error e ∧ e.Expects expected := by
  obtain ⟨e, hsim, rfl⟩ | ⟨h₁, tx, h₂, rfl, hsim, hy₁⟩ := Attempt.yields_bind_iff.mp hy
  · cases yields_step_pure_eq hsim hh
  obtain rfl := Except.ok.inj
    (yields_step_pure_eq hsim fun x hx => hh x (List.mem_append_left _ hx))
  have hsigned : SignedWith f.sequence (p.simulationTx f msgs) := ⟨p, f, msgs, [], rfl, rfl⟩
  have hh₂ : ∀ x ∈ h₂, p.Obeys expected x := fun x hx => hh x (List.mem_append_right _ hx)
  obtain ⟨e, hstep, rfl⟩ | ⟨h₂, a, h₃, rfl, hstep, hy₂⟩ := Attempt.yields_bind_iff.mp hy₁
  · rcases yields_simulationStep hsigned hstep hh₂ with ⟨_, _, _, hok, _⟩ | ⟨hne, e', he', hexpects⟩
    · cases hok
    · cases he'
      exact .inr ⟨hne, e, rfl, hexpects⟩
  rcases yields_simulationStep hsigned hstep fun x hx => hh₂ x (List.mem_append_left _ hx) with
    ⟨a', response, gas, hok, hresponse, hgas⟩ | ⟨_, e, he, _⟩
  · obtain rfl := Except.ok.inj hok
    rw [hresponse] at hy₂
    obtain ⟨e, hresp, _⟩ | ⟨h₃, response', h₄, rfl, hresp, hy₃⟩ := Attempt.yields_bind_iff.mp hy₂
    · cases (Attempt.yields_ofExcept_iff.mp hresp).2
    obtain rfl := Except.ok.inj (Attempt.yields_ofExcept_iff.mp hresp).2
    rw [hgas] at hy₃
    obtain ⟨e, hadjust, _⟩ | ⟨h₄, gas', h₅, rfl, _, hy₄⟩ := Attempt.yields_bind_iff.mp hy₃
    · cases (Attempt.yields_ofExcept_iff.mp hadjust).2
    · exact .inl ⟨_, (Attempt.yields_pure_iff.mp hy₄).2⟩
  · cases he

theorem yields_signTx {f : TxFactory} {u : UnsignedTx} {r : Except RelayError Schema.Message}
    (hmode : f.signMode = .direct) (hy : (p.signTx f u).run.Yields h r)
    (hh : ∀ x ∈ h, p.Obeys expected x) : ∃ m, r = .ok m := by
  have hdirect : ¬ f.signMode ≠ .direct := not_not_intro hmode
  rw [signTx_eq, if_neg hdirect] at hy
  have hsign {g : List Exchange} {x : Except RelayError Bytes}
      (hg : ∀ y ∈ g, p.Obeys expected y)
      (hx : (Attempt.demand (request (.sign p (u.signDoc f).encode))).run.Yields g x) :
      ∃ signature, x = .ok signature := by
    have hreq : (request (.sign p (u.signDoc f).encode)).Yields g x := hx
    obtain rfl := yields_request_iff.mp hreq
    exact hg (.answered (.sign p (u.signDoc f).encode) x) List.mem_cons_self
  obtain ⟨e, hx, rfl⟩ | ⟨h₁, signature, h₂, rfl, _, hm⟩ := Attempt.yields_bind_iff.mp hy
  · obtain ⟨_, he⟩ := hsign hh hx
    cases he
  · exact ⟨_, (Attempt.yields_pure_iff.mp hm).2⟩

/-- A build succeeds, or its simulation is told the expected sequence. -/
theorem yields_assemble {f : TxFactory} {msgs : List Outgoing} {anys : List Any}
    {r : Except RelayError BuiltTx} (hanys : msgs.mapM Outgoing.toAny = .ok anys)
    (hmode : f.signMode = .direct) (hy : (p.assemble f msgs s).run.Yields h r)
    (hh : ∀ x ∈ h, p.Obeys expected x) :
    (∃ built, r = .ok built) ∨
      f.sequence ≠ expected ∧ ∃ e, r = .error e ∧ e.Expects expected := by
  obtain ⟨e, hmsgs, rfl⟩ | ⟨h₁, anys', h₂, rfl, hmsgs, hy₁⟩ := Attempt.yields_bind_iff.mp hy
  · rw [hanys] at hmsgs
    cases (Attempt.yields_ofExcept_iff.mp hmsgs).2
  have hh₂ : ∀ x ∈ h₂, p.Obeys expected x := fun x hx => hh x (List.mem_append_right _ hx)
  obtain ⟨e, hsim, rfl⟩ | ⟨h₂, gas, h₃, rfl, _, hy₂⟩ := Attempt.yields_bind_iff.mp hy₁
  · obtain ⟨_, hok⟩ | ⟨hne, e', he', hexpects⟩ := yields_simulate hsim hh₂
    · cases hok
    · cases he'
      exact .inr ⟨hne, e, rfl, hexpects⟩
  have hh₃ : ∀ x ∈ h₃, p.Obeys expected x := fun x hx => hh₂ x (List.mem_append_right _ hx)
  obtain ⟨e, hunsigned, rfl⟩ | ⟨h₃, unsigned, h₄, rfl, _, hy₃⟩ := Attempt.yields_bind_iff.mp hy₂
  · cases yields_step_pure_eq hunsigned hh₃
  have hh₄ : ∀ x ∈ h₄, p.Obeys expected x := fun x hx => hh₃ x (List.mem_append_right _ hx)
  obtain ⟨e, hsigned, rfl⟩ | ⟨h₄, signed, h₅, rfl, _, hy₄⟩ := Attempt.yields_bind_iff.mp hy₃
  · obtain ⟨_, _, he⟩ := yields_step_ok_of (P := fun _ => True)
      (fun h' x hh' hx => ⟨trivial, yields_signTx hmode hx hh'⟩) hsigned hh₄
    cases he
  have hh₅ : ∀ x ∈ h₅, p.Obeys expected x := fun x hx => hh₄ x (List.mem_append_right _ hx)
  obtain ⟨e, hbytes, rfl⟩ | ⟨h₅, bytes, h₆, rfl, _, hy₅⟩ := Attempt.yields_bind_iff.mp hy₄
  · cases yields_step_pure_eq hbytes hh₅
  · exact .inl ⟨_, (Attempt.yields_pure_iff.mp hy₅).2⟩

/-- The cache learns at most the expected sequence; a build that fails is told the expected one. -/
theorem yields_build_obeying {state st : SequenceState} {msgs : List Outgoing} {anys : List Any}
    {memo : String} {r : Except RelayError BuiltTx}
    (hanys : msgs.mapM Outgoing.toAny = .ok anys) (hmode : p.config.signMode = .direct)
    (hy : (p.build state msgs memo s).Yields h (st, r)) (hh : ∀ x ∈ h, p.Obeys expected x) :
    (∃ learned, learned ≤ expected ∧ st.next = max state.next learned) ∧
      ((∃ built, r = .ok built) ∨
        st.next ≠ expected ∧ ∃ e, r = .error e ∧ e.Expects expected) := by
  obtain ⟨e, hprepare, _, _⟩ | ⟨f, h₁, h₂, rfl, hprepare, rfl, hassemble⟩ := yields_build hy
  · obtain ⟨_, _, he, _⟩ := yields_prepare hprepare hh
    cases he
  · obtain ⟨number, sequence, hf, hle⟩ :=
      yields_prepare hprepare fun x hx => hh x (List.mem_append_left _ hx)
    obtain rfl := Except.ok.inj hf
    exact ⟨⟨sequence, hle, rfl⟩, yields_assemble hanys hmode hassemble fun x hx =>
      hh x (List.mem_append_right _ hx)⟩

end Provider

end PacketRelay
