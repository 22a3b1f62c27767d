import PacketRelay.Proofs.Query
import PacketRelay.Proofs.Retry.Attempts
import PacketRelay.Proofs.Tx.Signed
import PacketRelay.Submission

/-!
# Building a transaction

Only queries of its own node, its key and its pauses are in a provider's hands while it builds a
transaction.  What it builds is signed with the sequence that the cache shows after the look-up.
-/

namespace PacketRelay

open Program
open Schema.Message (ofBytes)

/-- The requests by which a provider builds a transaction. -/
def Request.Builds (p : Provider) : Request → Prop
  | .rest | .attempting _ | .pause _ => True
  | .address q | .sign q _ => q = p
  | .call q (.abciQuery ..) => q = p
  | .record q m => q = p ∧ m = .rpcError
  | _ => False

/-- The requests by which it looks its account up. -/
def Request.Prepares (p : Provider) : Request → Prop
  | .sign .. => False
  | .call q (.abciQuery path ..) => q = p ∧ path = Provider.accountPath
  | r => r.Builds p

theorem Request.Prepares.of_loop {p : Provider} (r : Request)
    (h : RetryScope.step.LoopRequest r) : r.Prepares p := by
  cases r <;> simp_all [RetryScope.LoopRequest, Request.Prepares, Request.Builds]

theorem Request.Prepares.builds {p : Provider} (r : Request) (h : r.Prepares p) : r.Builds p := by
  cases r with
  | call q c =>
      cases c with
      | abciQuery path data height prove => exact h.1
      | _ => exact h
  | sign q document => exact h.elim
  | _ => exact h

/-- The requests by which it assembles one, once the account is known. -/
def Request.Assembles (p : Provider) : Request → Prop
  | .address _ => False
  | .call q (.abciQuery path ..) => q = p ∧ path = Provider.simulatePath
  | r => r.Builds p

theorem Request.Assembles.of_loop {p : Provider} (r : Request)
    (h : RetryScope.step.LoopRequest r) : r.Assembles p := by
  cases r <;> simp_all [RetryScope.LoopRequest, Request.Assembles, Request.Builds]

theorem Request.Assembles.builds {p : Provider} (r : Request) (h : r.Assembles p) :
    r.Builds p := by
  cases r with
  | call q c =>
      cases c with
      | abciQuery path data height prove => exact h.1
      | _ => exact h
  | address q => exact h.elim
  | _ => exact h

/-- Only this transaction is simulated. -/
def Request.SimulatesOnly (tx : Bytes) : Request → Prop
  | .call _ (.abciQuery path data _ _) => path = Provider.simulatePath → data = (ofBytes 2 tx).encode
  | _ => True

theorem Request.SimulatesOnly.of_loop {tx : Bytes} (r : Request)
    (h : RetryScope.step.LoopRequest r) : r.SimulatesOnly tx := by
  cases r with
  | call q c => exact h.elim
  | _ => trivial

theorem toNat_max (m n : UInt64) : (max m n).toNat = max m.toNat n.toNat := by
  by_cases hle : m ≤ n
  · have hmax : max m n = n := if_pos hle
    rw [hmax, Nat.max_eq_right (UInt64.le_iff_toNat_le.mp hle)]
  · have hmax : max m n = m := if_neg hle
    rw [hmax, Nat.max_eq_left (Nat.le_of_lt (UInt64.lt_iff_toNat_lt.mp (UInt64.not_le.mp hle)))]

theorem max_eq_left_of_le {m n : UInt64} (h : n ≤ m) : max m n = m := by
  rw [← UInt64.toNat_inj, toNat_max, Nat.max_eq_left (UInt64.le_iff_toNat_le.mp h)]

theorem toNat_succ {n : UInt64} (hn : n.toNat + 1 < UInt64.size) :
    (n + 1).toNat = n.toNat + 1 := by
  have hone : (1 : UInt64).toNat = 1 := rfl
  rw [UInt64.toNat_add, hone, Nat.mod_eq_of_lt hn]

theorem max_succ {n : UInt64} (hn : n.toNat + 1 < UInt64.size) : max n (n + 1) = n + 1 := by
  rw [← UInt64.toNat_inj, toNat_max, toNat_succ hn, Nat.max_eq_right (Nat.le_succ _)]

namespace SequenceState

theorem next_le_advance (s : SequenceState) (n : UInt64) : s.next ≤ (s.advance n).next := by
  rw [next_advance, UInt64.le_iff_toNat_le, toNat_max]
  exact Nat.le_max_left _ _

theorem le_next_advance (s : SequenceState) (n : UInt64) : n ≤ (s.advance n).next := by
  rw [next_advance, UInt64.le_iff_toNat_le, toNat_max]
  exact Nat.le_max_right _ _

end SequenceState

namespace Provider

variable {p : Provider} {s : Signal}

theorem asks_queryAccount {address : String} :
    Asks (Request.Prepares p) (p.queryAccount address).run := by
  refine Attempt.asks_bind (Attempt.asks_outcome (asks_queryAbci ⟨rfl, rfl⟩ ⟨rfl, rfl⟩))
    fun answer => ?_
  cases answer with
  | ok a => exact Attempt.asks_ofExcept _
  | error e => dsimp only; split <;> exact Attempt.asks_throw _

theorem asks_accountNumberSequence {address : String} :
    Asks (Request.Prepares p) (p.accountNumberSequence address).run :=
  Attempt.asks_bind asks_queryAccount fun _ => Attempt.asks_pure _

/-- The factory for an account on the chain. -/
def factoryFor (p : Provider) (number sequence : UInt64) : TxFactory :=
  { p.factory with accountNumber := number, sequence := sequence, gas := p.config.minGas }

/-- A fresh factory knows neither number nor sequence, so both are looked up. -/
theorem prepare_factory : p.prepare p.factory s = do
    let sender ← p.config.retry.step s p.address
    p.config.retry.step s (p.ensureAccount sender)
    let account ← p.config.retry.step s (p.accountNumberSequence sender)
    return p.factoryFor account.1 account.2 := by
  unfold prepare
  refine congrArg (_ >>= ·) (funext fun sender => congrArg (_ >>= ·) (funext fun _ => ?_))
  have hunset : p.factory.accountNumber = 0 ∨ p.factory.sequence = 0 := .inl rfl
  simp only [if_pos hunset, pure_bind]
  refine congrArg (_ >>= ·) (funext fun account => congrArg pure ?_)
  by_cases hgas : p.config.minGas = 0
  · simp [factoryFor, factory, hgas]
  · simp [factoryFor, factory, hgas]

theorem asks_prepare : Asks (Request.Prepares p) (p.prepare p.factory s).run := by
  rw [prepare_factory]
  refine Attempt.asks_bind (RetryPolicy.asks_step Request.Prepares.of_loop ?_) fun sender => ?_
  · exact Program.asks_request rfl
  refine Attempt.asks_bind (RetryPolicy.asks_step Request.Prepares.of_loop ?_) fun _ => ?_
  · exact Attempt.asks_bind asks_queryAccount fun _ => Attempt.asks_pure _
  exact Attempt.asks_bind
    (RetryPolicy.asks_step Request.Prepares.of_loop asks_accountNumberSequence)
    fun _ => Attempt.asks_pure _

theorem asks_simulate {f : TxFactory} {msgs : List Any} :
    Asks (Request.Assembles p) (p.simulate f msgs s).run := by
  refine Attempt.asks_bind (RetryPolicy.asks_step Request.Assembles.of_loop ?_) fun tx => ?_
  · exact Attempt.asks_pure _
  refine Attempt.asks_bind
    (RetryPolicy.asks_step Request.Assembles.of_loop (asks_queryAbci ⟨rfl, rfl⟩ ⟨rfl, rfl⟩))
    fun a => ?_
  refine Attempt.asks_bind (Attempt.asks_ofExcept _) fun response => ?_
  exact Attempt.asks_bind (Attempt.asks_ofExcept _) fun gas => Attempt.asks_pure _

theorem signTx_eq (f : TxFactory) (u : UnsignedTx) :
    p.signTx f u =
      if f.signMode ≠ .direct then
        throw (.config ("sign mode " ++ f.signMode.label
          ++ " is not supported for signing, use \"direct\""))
      else do
        let signature ← Attempt.demand (request (.sign p (u.signDoc f).encode))
        return u.withSignature signature := by
  unfold signTx
  split <;> rfl

theorem asks_signTx {f : TxFactory} {u : UnsignedTx} :
    Asks (Request.Assembles p) (p.signTx f u).run := by
  rw [signTx_eq]
  split
  · exact Attempt.asks_throw _
  · exact Attempt.asks_bind (Program.asks_request rfl) fun _ => Attempt.asks_pure _

theorem asks_assemble {f : TxFactory} {msgs : List Outgoing} :
    Asks (Request.Assembles p) (p.assemble f msgs s).run := by
  refine Attempt.asks_bind (Attempt.asks_ofExcept _) fun anys => ?_
  refine Attempt.asks_bind asks_simulate fun _ => ?_
  refine Attempt.asks_bind (RetryPolicy.asks_step Request.Assembles.of_loop ?_) fun unsigned => ?_
  · exact Attempt.asks_pure _
  refine Attempt.asks_bind (RetryPolicy.asks_step Request.Assembles.of_loop asks_signTx)
    fun signed => ?_
  refine Attempt.asks_bind (RetryPolicy.asks_step Request.Assembles.of_loop ?_) fun bytes => ?_
  · exact Attempt.asks_pure _
  exact Attempt.asks_pure _

theorem asks_build {state : SequenceState} {msgs : List Outgoing} {memo : String} :
    Asks (Request.Builds p) (p.build state msgs memo s) := by
  refine (asks_prepare.mono Request.Prepares.builds).bind fun r => ?_
  cases r with
  | error e => trivial
  | ok f => exact (asks_assemble.mono Request.Assembles.builds).bind fun _ => trivial

theorem yields_prepare_ok {f : TxFactory} {h : List Exchange}
    (hy : (p.prepare p.factory s).run.Yields h (.ok f)) :
    ∃ sender number sequence h₁ h₂, f = p.factoryFor number sequence ∧ h = h₁ ++ h₂ ∧
      (p.accountNumberSequence sender).run.Yields h₂ (.ok (number, sequence)) := by
  rw [prepare_factory] at hy
  obtain ⟨h₁, sender, h₂, rfl, _, hy₁⟩ := Attempt.yields_bind_ok_iff.mp hy
  obtain ⟨h₂, _, h₃, rfl, _, hy₂⟩ := Attempt.yields_bind_ok_iff.mp hy₁
  obtain ⟨h₃, account, h₄, rfl, hlookup, hy₃⟩ := Attempt.yields_bind_ok_iff.mp hy₂
  obtain ⟨rfl, hf⟩ := Attempt.yields_pure_iff.mp hy₃
  obtain ⟨h₄, h₅, rfl, haccount⟩ := RetryPolicy.yields_step_ok hlookup
  obtain rfl := Except.ok.inj hf
  exact ⟨sender, account.1, account.2, h₁ ++ (h₂ ++ h₄), h₅, rfl, by simp, haccount⟩

theorem yields_step_pure {α : Type} {a b : α} {h : List Exchange}
    (hy : (p.config.retry.step s (pure a)).run.Yields h (.ok b)) : b = a := by
  obtain ⟨_, _, _, hpure⟩ := RetryPolicy.yields_step_ok hy
  exact (Attempt.yields_pure_ok_iff.mp hpure).2

theorem yields_signTx_ok {f : TxFactory} {u : UnsignedTx} {m : Schema.Message} {h : List Exchange}
    (hy : (p.signTx f u).run.Yields h (.ok m)) : f.signMode = .direct ∧ ∃ signature,
      m = u.withSignature signature ∧
        .answered (.sign p (u.signDoc f).encode) (.ok signature) ∈ h := by
  rw [signTx_eq] at hy
  split at hy
  · cases (Attempt.yields_throw_iff.mp hy).2
  · next hmode =>
    obtain ⟨h₁, signature, h₂, rfl, hsign, hm⟩ := Attempt.yields_bind_ok_iff.mp hy
    have hreq : (request (.sign p (u.signDoc f).encode)).Yields h₁ (.ok signature) := hsign
    obtain rfl := yields_request_iff.mp hreq
    exact ⟨Decidable.not_not.mp hmode, signature, (Attempt.yields_pure_ok_iff.mp hm).2, by simp⟩

/-- The node simulated a transaction, and its use of gas was adjusted. -/
def FindsGas (p : Provider) (tx : Bytes) (gas : UInt64) (x : Exchange) : Prop :=
  ∃ a response, x = .answered (.call p (.abciQuery simulatePath (ofBytes 2 tx).encode 0 false)) (.ok a) ∧
    a.code = 0 ∧ decodeAnswer .simulateResponse a.value = .ok response ∧
    p.adjustGas (simulatedGas response) = .ok gas

theorem yields_simulate_ok {f : TxFactory} {msgs : List Any} {response : Schema.Message}
    {gas : UInt64} {h : List Exchange}
    (hy : (p.simulate f msgs s).run.Yields h (.ok (response, gas))) :
    (∃ x ∈ h, p.FindsGas (p.simulationTx f msgs) gas x) ∧
      ∀ x ∈ h, x.request.SimulatesOnly (p.simulationTx f msgs) := by
  obtain ⟨h₁, tx, h₂, rfl, htx, hy₁⟩ := Attempt.yields_bind_ok_iff.mp hy
  obtain ⟨h₂, a, h₃, rfl, hquery, hy₂⟩ := Attempt.yields_bind_ok_iff.mp hy₁
  obtain ⟨h₃, response', h₄, rfl, hresponse, hy₃⟩ := Attempt.yields_bind_ok_iff.mp hy₂
  obtain ⟨h₄, gas', h₅, rfl, hgas, hy₄⟩ := Attempt.yields_bind_ok_iff.mp hy₃
  obtain ⟨rfl, hpair⟩ := Attempt.yields_pure_ok_iff.mp hy₄
  obtain ⟨rfl, rfl⟩ := Prod.mk.inj hpair
  obtain ⟨rfl, hdecoded⟩ := Attempt.yields_ofExcept_iff.mp hresponse
  obtain ⟨rfl, hadjusted⟩ := Attempt.yields_ofExcept_iff.mp hgas
  obtain rfl := yields_step_pure htx
  constructor
  · obtain ⟨g, h₂, rfl, hone⟩ := RetryPolicy.yields_step_ok hquery
    obtain ⟨a', rfl, hok⟩ | ⟨e, _, he⟩ := yields_queryAbci hone
    · obtain ⟨rfl, hcode, _⟩ := checkAnswer_ok_iff.mp hok.symm
      exact ⟨_, by simp, a, response, rfl, hcode, hdecoded.symm, hadjusted.symm⟩
    · cases he
  · have hsteps : ∀ x ∈ h₁, x.request.SimulatesOnly (p.simulationTx f msgs) :=
      htx.asks (RetryPolicy.asks_step Request.SimulatesOnly.of_loop (Attempt.asks_pure _))
    have hqueries : ∀ x ∈ h₂, x.request.SimulatesOnly (p.simulationTx f msgs) :=
      hquery.asks (RetryPolicy.asks_step Request.SimulatesOnly.of_loop
        (asks_queryAbci (fun _ => rfl) trivial))
    intro x hx
    simp only [List.append_nil, List.mem_append] at hx
    exact hx.elim (hsteps x) (hqueries x)

/-- What was assembled from a factory, with the signature that the key gave and the gas that the
simulation found. -/
structure Assembled (p : Provider) (f : TxFactory) (anys : List Any) (adjusted : UInt64)
    (signature : Bytes) (h : List Exchange) (built : BuiltTx) : Prop where
  direct : f.signMode = .direct
  built_eq : built = ⟨((p.unsignedTx { f with gas := max adjusted p.config.minGas } anys).withSignature
    signature).encode, f.sequence, [f.gasPrice.fee (max adjusted p.config.minGas)]⟩
  signed : .answered (.sign p ((p.unsignedTx { f with gas := max adjusted p.config.minGas }
    anys).signDoc f).encode) (.ok signature) ∈ h
  simulated : ∃ x ∈ h, p.FindsGas (p.simulationTx f anys) adjusted x
  simulates_only : ∀ x ∈ h, x.request.SimulatesOnly (p.simulationTx f anys)

theorem yields_assemble_ok {f : TxFactory} {msgs : List Outgoing} {built : BuiltTx}
    {h : List Exchange} (hy : (p.assemble f msgs s).run.Yields h (.ok built)) :
    ∃ anys adjusted signature, msgs.mapM Outgoing.toAny = .ok anys ∧
      p.Assembled f anys adjusted signature h built := by
  obtain ⟨h₁, anys, h₂, rfl, hanys, hy₁⟩ := Attempt.yields_bind_ok_iff.mp hy
  obtain ⟨h₂, ⟨response, adjusted⟩, h₃, rfl, hsim, hy₂⟩ := Attempt.yields_bind_ok_iff.mp hy₁
  obtain ⟨h₃, unsigned, h₄, rfl, hunsigned, hy₃⟩ := Attempt.yields_bind_ok_iff.mp hy₂
  obtain ⟨h₄, signed, h₅, rfl, hsigned, hy₄⟩ := Attempt.yields_bind_ok_iff.mp hy₃
  obtain ⟨h₅, bytes, h₆, rfl, hbytes, hy₅⟩ := Attempt.yields_bind_ok_iff.mp hy₄
  obtain ⟨rfl, hok⟩ := Attempt.yields_ofExcept_iff.mp hanys
  obtain rfl := yields_step_pure hunsigned
  obtain ⟨hfound, honly⟩ := yields_simulate_ok hsim
  obtain ⟨g, g', rfl, hsign⟩ := RetryPolicy.yields_step_ok hsigned
  obtain ⟨hmode, signature, rfl, hsignature⟩ := yields_signTx_ok hsign
  obtain rfl := yields_step_pure hbytes
  obtain ⟨rfl, hbuilt⟩ := Attempt.yields_pure_ok_iff.mp hy₅
  have hplain {α : Type} {a b : α} {h : List Exchange}
      (hy : (p.config.retry.step s (pure a)).run.Yields h (.ok b)) :
      ∀ x ∈ h, x.request.SimulatesOnly (p.simulationTx f anys) :=
    hy.asks (RetryPolicy.asks_step Request.SimulatesOnly.of_loop (Attempt.asks_pure _))
  have hsigning : ∀ x ∈ g ++ g', x.request.SimulatesOnly (p.simulationTx f anys) := by
    refine hsigned.asks (RetryPolicy.asks_step Request.SimulatesOnly.of_loop ?_)
    rw [signTx_eq]
    split
    · exact Attempt.asks_throw _
    · exact Attempt.asks_bind (Program.asks_request trivial) fun _ => Attempt.asks_pure _
  refine ⟨anys, adjusted, signature, hok.symm, hmode, hbuilt, ?_, ?_, ?_⟩
  · have hmem := List.mem_append_right g hsignature
    simp only [List.mem_append, List.nil_append] at hmem ⊢
    exact .inr (.inr (.inl hmem))
  · obtain ⟨x, hx, hfinds⟩ := hfound
    exact ⟨x, by simp [hx], hfinds⟩
  · intro x hx
    simp only [List.nil_append, List.append_nil, List.mem_append] at hx
    obtain hx | hx | hx | hx := hx
    · exact honly x hx
    · exact hplain hunsigned x hx
    · exact hsigning x (List.mem_append.mpr hx)
    · exact hplain hbytes x hx

/-- A build fails before the cache learned from the chain, or goes on with what it learned. -/
theorem yields_build {state st : SequenceState} {msgs : List Outgoing} {memo : String}
    {r : Except RelayError BuiltTx} {h : List Exchange}
    (hy : (p.build state msgs memo s).Yields h (st, r)) :
    (∃ e, (p.prepare p.factory s).run.Yields h (.error e) ∧ st = state ∧ r = .error e) ∨
      ∃ f h₁ h₂, h = h₁ ++ h₂ ∧ (p.prepare p.factory s).run.Yields h₁ (.ok f) ∧
        st = state.learn f ∧
        (p.assemble (withMemoAndSequence f memo st.next) msgs s).run.Yields h₂ r := by
  obtain ⟨h₁, x, h₂, rfl, hprepare, hy₁⟩ := yields_bind_iff.mp hy
  cases x with
  | error e =>
      obtain ⟨rfl, hr⟩ := yields_done_iff.mp hy₁
      cases hr
      exact .inl ⟨e, by simpa using hprepare, rfl, rfl⟩
  | ok f =>
      obtain ⟨h₂, x, h₃, rfl, hassemble, hy₂⟩ := yields_bind_iff.mp hy₁
      obtain ⟨rfl, hr⟩ := yields_done_iff.mp hy₂
      cases hr
      exact .inr ⟨f, h₁, h₂, by simp, hprepare, rfl, hassemble⟩

theorem le_next_of_yields_build {state st : SequenceState} {msgs : List Outgoing} {memo : String}
    {r : Except RelayError BuiltTx} {h : List Exchange}
    (hy : (p.build state msgs memo s).Yields h (st, r)) : state.next ≤ st.next := by
  obtain ⟨e, _, rfl, _⟩ | ⟨f, h₁, h₂, _, _, rfl, _⟩ := yields_build hy
  · exact UInt64.le_refl _
  · exact state.next_le_advance f.sequence

/-- What was built carries the messages and the memo, and is signed with the learned sequence. -/
theorem yields_build_ok {state st : SequenceState} {msgs : List Outgoing} {memo : String}
    {built : BuiltTx} {h : List Exchange}
    (hy : (p.build state msgs memo s).Yields h (st, .ok built)) :
    built.sequence = st.next ∧ SignedWith st.next built.bytes ∧
      ∃ anys, msgs.mapM Outgoing.toAny = .ok anys ∧ Carries anys memo built.bytes := by
  obtain ⟨e, _, _, hr⟩ | ⟨f, h₁, h₂, rfl, hprepare, hst, hassemble⟩ := yields_build hy
  · cases hr
  obtain ⟨anys, adjusted, signature, hanys, hassembled⟩ := yields_assemble_ok hassemble
  obtain ⟨sender, number, sequence, _, _, rfl, _, _⟩ := yields_prepare_ok hprepare
  rw [hassembled.built_eq]
  refine ⟨rfl, ⟨p, _, anys, signature, rfl, rfl⟩, anys, hanys, p, _, signature, ?_, rfl⟩
  simp [withMemoAndSequence, factoryFor, factory, eq_comm]

/-- The fees that a provider books for a transaction are the ones that it offers. -/
theorem pays_of_yields_build {state st : SequenceState} {msgs : List Outgoing} {memo : String}
    {built : BuiltTx} {h : List Exchange}
    (hy : (p.build state msgs memo s).Yields h (st, .ok built)) : Pays built.fees built.bytes := by
  obtain ⟨e, _, _, hr⟩ | ⟨f, h₁, h₂, rfl, _, _, hassemble⟩ := yields_build hy
  · cases hr
  obtain ⟨anys, adjusted, signature, _, hassembled⟩ := yields_assemble_ok hassemble
  rw [hassembled.built_eq]
  exact ⟨p, _, anys, signature, rfl, rfl⟩

end Provider

end PacketRelay
