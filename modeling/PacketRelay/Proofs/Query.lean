import PacketRelay.Messages
import PacketRelay.Proofs.Program.Asks

/-!
# Histories of queries

Each query makes one call to the provider's node.  An answer is read and the query is over; a call
that failed is counted.
-/

namespace PacketRelay

open Program

/-- The exchange hands over the answer to a call. -/
inductive Exchange.Hands (c : NodeCall) (a : c.Answer) : Exchange → Prop where
  | called {p : Provider} : Hands c a (.answered (.call p c) a)
  | started {p : Provider} : Hands c a (.answered (.start p c) (.inl a))
  | awaited {ticket : Nat} : Hands c a (.answered (.await c ticket) a)
  | first {ticket ticket' : Nat} {c' : NodeCall} :
    Hands c a (.answered (.awaitEither c ticket c' ticket') (.inl a))
  | second {ticket ticket' : Nat} {c' : NodeCall} :
    Hands c a (.answered (.awaitEither c' ticket' c ticket) (.inr a))

/-- The query of an entry of the IBC store with its proof. -/
def StoreKey.query (key : StoreKey) (height : UInt64) : NodeCall :=
  .abciQuery StorePath.ibcStore key.bytes height true

/-- Store queries are answered at the height asked; zero asks for the latest one. -/
def HeightsKept (h : List Exchange) : Prop :=
  ∀ (key : Bytes) (height : UInt64) (a : QueryAnswer), ∀ x ∈ h,
    x.Hands (.abciQuery StorePath.ibcStore key height true) (.ok a) → height ≠ 0 → a.height = height

theorem HeightsKept.mono {h h' : List Exchange} (hh : HeightsKept h) (hsub : h' ⊆ h) :
    HeightsKept h' := by
  intro key height a x hx
  exact hh key height a x (hsub hx)

namespace Provider

variable {p : Provider} {h : List Exchange}

section Asks

variable {R : Request → Prop}

theorem asks_counted {α : Type} {answer : Except RelayError α} (hrecord : R (.record p .rpcError)) :
    Asks R (p.counted answer).run := by
  cases answer with
  | ok a => exact Attempt.asks_pure a
  | error e => exact Attempt.asks_bind (Attempt.asks_request hrecord) fun _ => Attempt.asks_throw e

theorem asks_queryAbci {path : String} {data : Bytes} {height : UInt64} {prove : Bool}
    (hcall : R (.call p (.abciQuery path data height prove))) (hrecord : R (.record p .rpcError)) :
    Asks R (p.queryAbci path data height prove).run :=
  Attempt.asks_bind (Attempt.asks_request hcall) fun _ =>
    Attempt.asks_bind (asks_counted hrecord) fun _ => Attempt.asks_ofExcept _

theorem asks_queryProof {height : UInt64} {key : Bytes}
    (hcall : ∀ height, R (.call p (.abciQuery StorePath.ibcStore key height true)))
    (hrecord : R (.record p .rpcError)) : Asks R (p.queryProof height key).run :=
  Attempt.asks_bind (Attempt.asks_ofExcept _) fun height =>
    Attempt.asks_bind (asks_queryAbci (hcall height) hrecord) fun _ => Attempt.asks_ofExcept _

theorem asks_proveMember {height : UInt64} {key : StoreKey} {absent : String}
    (hcall : ∀ height, R (.call p (.abciQuery StorePath.ibcStore key.bytes height true)))
    (hrecord : R (.record p .rpcError)) : Asks R (p.proveMember height key absent).run := by
  refine Attempt.asks_bind (asks_queryProof hcall hrecord) fun proven => ?_
  dsimp only
  split
  · exact Attempt.asks_throw _
  · exact Attempt.asks_pure _

theorem asks_proveEntry {height : UInt64} {key : StoreKey}
    (hcall : ∀ height, R (.call p (.abciQuery StorePath.ibcStore key.bytes height true)))
    (hrecord : R (.record p .rpcError)) : Asks R (p.proveEntry height key).run :=
  Attempt.asks_bind (asks_queryProof hcall hrecord) fun _ => Attempt.asks_pure _

theorem asks_searchPacket {kind side channel port : String} {sequence : UInt64}
    {find : List TxResult → Option Packet} (hcall : ∀ query, R (.call p (.txSearch query)))
    (hrecord : R (.record p .rpcError)) :
    Asks R (p.searchPacket kind side channel port sequence find).run := by
  refine Attempt.asks_bind (Attempt.asks_request (hcall _)) fun answer =>
    Attempt.asks_bind (asks_counted hrecord) fun txs => ?_
  split
  · exact Attempt.asks_pure _
  · exact Attempt.asks_throw _

theorem asks_signedBy {t : Schema.MessageType} {m : String → Schema.Message}
    (haddress : R (.address p)) : Asks R (p.signedBy t m).run :=
  Attempt.asks_bind (Program.asks_request haddress) fun _ => Attempt.asks_pure _

end Asks

theorem yields_counted {α : Type} {answer r : Except RelayError α}
    (hy : (p.counted answer).run.Yields h r) :
    r = answer ∧ ((∃ a, answer = .ok a ∧ h = []) ∨
      ∃ e, answer = .error e ∧ h = [.answered (.record p .rpcError) ()]) := by
  cases answer with
  | ok a =>
      obtain ⟨rfl, rfl⟩ := Attempt.yields_pure_iff.mp hy
      exact ⟨rfl, .inl ⟨a, rfl, rfl⟩⟩
  | error e =>
      obtain ⟨_, h', rfl, hthrow⟩ := Attempt.yields_request_bind_iff.mp hy
      obtain ⟨rfl, rfl⟩ := Attempt.yields_throw_iff.mp hthrow
      exact ⟨rfl, .inr ⟨e, rfl, rfl⟩⟩

theorem yields_counted_bind {α β : Type} {answer : Except RelayError α} {f : α → Attempt β}
    {r : Except RelayError β} (hy : (p.counted answer >>= f).run.Yields h r) :
    (∃ a, answer = .ok a ∧ (f a).run.Yields h r) ∨
      ∃ e, answer = .error e ∧ h = [.answered (.record p .rpcError) ()] ∧ r = .error e := by
  obtain ⟨e, hcounted, rfl⟩ | ⟨h₁, a, h₂, rfl, hcounted, hf⟩ := Attempt.yields_bind_iff.mp hy
  · obtain ⟨rfl, ⟨a, ha, _⟩ | ⟨e', he, rfl⟩⟩ := yields_counted hcounted
    · cases ha
    · cases he
      exact .inr ⟨e, rfl, rfl, rfl⟩
  · obtain ⟨rfl, ⟨a', ha, rfl⟩ | ⟨e, he, _⟩⟩ := yields_counted hcounted
    · exact .inl ⟨a, rfl, hf⟩
    · cases he

theorem yields_blockTime {height : UInt64} {r : Except RelayError BlockTime}
    (hy : (p.blockTime height).run.Yields h r) :
    (∃ t, r = .ok t ∧ h = [.answered (.call p (.blockTime height)) (.ok t)]) ∨
      ∃ e, r = .error e ∧ h = [.answered (.call p (.blockTime height)) (.error e),
        .answered (.record p .rpcError) ()] := by
  obtain ⟨answer, h', rfl, hcounted⟩ := Attempt.yields_request_bind_iff.mp hy
  obtain ⟨rfl, ⟨t, rfl, rfl⟩ | ⟨e, rfl, rfl⟩⟩ := yields_counted hcounted
  · exact .inl ⟨t, rfl, rfl⟩
  · exact .inr ⟨e, rfl, rfl⟩

theorem yields_blockTime_ok (height : UInt64) (t : BlockTime) :
    (p.blockTime height).run.Yields [.answered (.call p (.blockTime height)) (.ok t)] (.ok t) :=
  Attempt.yields_request_bind_iff.mpr ⟨.ok t, [], rfl, Attempt.yields_pure_iff.mpr ⟨rfl, rfl⟩⟩

/-- A block time that was not read, or read too late, is nowhere in the history. -/
theorem blockTime_not_mem_of_error {s : Signal} {height : UInt64} {e : RelayError}
    (hg : Attempt.Guarded s (p.blockTime height) h (.error e)) (q : Provider) (n : UInt64)
    (t : BlockTime) : .answered (.call q (.blockTime n)) (.ok t) ∉ h := by
  intro hmem
  cases hg with
  | fired _ => simp at hmem
  | finished hy =>
      rcases yields_blockTime hy with ⟨t', he, _⟩ | ⟨e', _, rfl⟩
      · cases he
      · simp at hmem
  | @dropped m h₁ r next _ hreach =>
      obtain ⟨a⟩ := r.nonempty_answer
      obtain ⟨h₂, b, hrest⟩ := (next a).exists_yields
      have hy : (p.blockTime height).run.Yields (h₁ ++ .answered r a :: h₂) b :=
        hreach.append (.step (.ask a) hrest)
      have hlate : .answered (.call q (.blockTime n)) (.ok t) ∈ h₁ := by
        simpa using hmem
      rcases yields_blockTime hy with ⟨t', _, heq⟩ | ⟨e', _, heq⟩
      · have hlength := congrArg List.length heq
        have hempty : h₁ = [] := List.eq_nil_of_length_eq_zero (by simp at hlength; omega)
        simp [hempty] at hlate
      · have hread : .answered (.call q (.blockTime n)) (.ok t) ∈ h₁ ++ .answered r a :: h₂ :=
          List.mem_append_left _ hlate
        rw [heq] at hread
        simp at hread

/-- The history of a search that was answered with these transactions. -/
def searched (p : Provider) (query : String) (txs : List TxResult) : List Exchange :=
  [.answered (.call p (.txSearch query)) (.ok txs)]

theorem yields_searchPacket_iff {kind side channel port : String} {sequence : UInt64}
    {find : List TxResult → Option Packet} {r : Except RelayError Packet} :
    (p.searchPacket kind side channel port sequence find).run.Yields h r ↔
      (∃ txs packet, h = p.searched (packetSearch kind side channel port sequence) txs ∧
        find txs = some packet ∧ r = .ok packet) ∨
      (∃ txs, h = p.searched (packetSearch kind side channel port sequence) txs ∧
        find txs = none ∧ r = .error (.invalidResponse ("no " ++ kind ++ " event for sequence "
          ++ Decimal.text sequence.toNat ++ " on " ++ port ++ "/" ++ channel))) ∨
      ∃ e, h = [.answered (.call p (.txSearch (packetSearch kind side channel port sequence)))
        (.error e), .answered (.record p .rpcError) ()] ∧ r = .error e := by
  constructor
  · intro hy
    obtain ⟨answer, h', rfl, hy₁⟩ := Attempt.yields_request_bind_iff.mp hy
    obtain ⟨txs, rfl, hy₂⟩ | ⟨e, rfl, rfl, rfl⟩ := yields_counted_bind hy₁
    · split at hy₂
      · next packet hfound =>
        obtain ⟨rfl, rfl⟩ := Attempt.yields_pure_iff.mp hy₂
        exact .inl ⟨txs, packet, rfl, hfound, rfl⟩
      · next hnone =>
        obtain ⟨rfl, rfl⟩ := Attempt.yields_throw_iff.mp hy₂
        exact .inr (.inl ⟨txs, rfl, hnone, rfl⟩)
    · exact .inr (.inr ⟨e, rfl, rfl⟩)
  · rintro (⟨txs, packet, rfl, hfound, rfl⟩ | ⟨txs, rfl, hnone, rfl⟩ | ⟨e, rfl, rfl⟩)
    · refine Attempt.yields_request_bind_iff.mpr ⟨.ok txs, [], rfl, ?_⟩
      refine Attempt.yields_bind_ok_iff.mpr ⟨[], txs, [], rfl, Attempt.yields_pure_ok_iff.mpr
        ⟨rfl, rfl⟩, ?_⟩
      rw [hfound]
      exact Attempt.yields_pure_iff.mpr ⟨rfl, rfl⟩
    · refine Attempt.yields_request_bind_iff.mpr ⟨.ok txs, [], rfl, ?_⟩
      refine Attempt.yields_bind_iff.mpr (.inr ⟨[], txs, [], rfl, Attempt.yields_pure_ok_iff.mpr
        ⟨rfl, rfl⟩, ?_⟩)
      rw [hnone]
      exact Attempt.yields_throw_iff.mpr ⟨rfl, rfl⟩
    · refine Attempt.yields_request_bind_iff.mpr ⟨.error e, _, rfl, ?_⟩
      refine Attempt.yields_bind_iff.mpr (.inl ⟨e, ?_, rfl⟩)
      exact Attempt.yields_request_bind_iff.mpr ⟨(), [], rfl, Attempt.yields_throw_iff.mpr ⟨rfl, rfl⟩⟩

theorem yields_searchPacket_ok_iff {kind side channel port : String} {sequence : UInt64}
    {find : List TxResult → Option Packet} {packet : Packet} :
    (p.searchPacket kind side channel port sequence find).run.Yields h (.ok packet) ↔
      ∃ txs, h = [.answered (.call p (.txSearch (packetSearch kind side channel port sequence)))
        (.ok txs)] ∧ find txs = some packet := by
  rw [yields_searchPacket_iff]
  constructor
  · rintro (⟨txs, found, rfl, hfound, heq⟩ | ⟨_, _, _, heq⟩ | ⟨_, _, heq⟩)
    · cases heq
      exact ⟨txs, rfl, hfound⟩
    · cases heq
    · cases heq
  · rintro ⟨txs, rfl, hfound⟩
    exact .inl ⟨txs, packet, rfl, hfound, rfl⟩

theorem yields_queryAbci {path : String} {data : Bytes} {height : UInt64} {prove : Bool}
    {r : Except RelayError QueryAnswer} (hy : (p.queryAbci path data height prove).run.Yields h r) :
    (∃ a, h = [.answered (.call p (.abciQuery path data height prove)) (.ok a)] ∧
        r = checkAnswer path prove a) ∨
      ∃ e, h = [.answered (.call p (.abciQuery path data height prove)) (.error e),
        .answered (.record p .rpcError) ()] ∧ r = .error e := by
  obtain ⟨answer, h', rfl, hy₁⟩ := Attempt.yields_request_bind_iff.mp hy
  obtain ⟨a, rfl, hy₂⟩ | ⟨e, rfl, rfl, rfl⟩ := yields_counted_bind hy₁
  · obtain ⟨rfl, rfl⟩ := Attempt.yields_ofExcept_iff.mp hy₂
    exact .inl ⟨a, rfl, rfl⟩
  · exact .inr ⟨e, rfl, rfl⟩

/-- The answer is accepted, and this proof in it holds at this height. -/
def Accepts (p : Provider) (a : QueryAnswer) (proof : Bytes) (height : Height) : Prop :=
  a.code = 0 ∧ p.provenAnswer a = .ok ⟨a.value, proof, height⟩

/-- The history is one query of an entry at a height, and its answer has the proof. -/
def Proves (p : Provider) (height : UInt64) (key : StoreKey) (a : QueryAnswer)
    (proof : PacketProof) (h : List Exchange) : Prop :=
  ∃ queryHeight, proofQueryHeight height = .ok queryHeight ∧
    h = [.answered (.call p (.abciQuery StorePath.ibcStore key.bytes queryHeight true)) (.ok a)] ∧
    a.code = 0 ∧ p.provenAnswer a = .ok ⟨a.value, proof.proof, proof.height⟩

theorem Proves.isAnswer {height : UInt64} {key : StoreKey} {a : QueryAnswer}
    {proof : PacketProof} (hproves : p.Proves height key a proof h) : ∀ x ∈ h, x.IsAnswer := by
  obtain ⟨queryHeight, _, rfl, _⟩ := hproves
  simp [Exchange.IsAnswer]

theorem proofQueryHeight_of_le {height : UInt64} (hheight : 3 ≤ height) :
    proofQueryHeight height = .ok (height - 1) ∧ height - 1 ≠ 0 := by
  have htwo : (2 : UInt64).toNat = 2 := rfl
  have hthree : (3 : UInt64).toNat = 3 := rfl
  have hone : (1 : UInt64).toNat = 1 := rfl
  rw [UInt64.le_iff_toNat_le, hthree] at hheight
  have hzero : height ≠ 0 := by
    rintro rfl
    exact absurd hheight (by decide)
  have hlow : ¬ height ≤ 2 := by
    rw [UInt64.le_iff_toNat_le, htwo]
    omega
  refine ⟨by rw [proofQueryHeight, if_neg hzero, if_neg hlow], ?_⟩
  intro hsub
  have hheight' : height = 1 := by
    rw [← UInt64.sub_add_cancel height 1, hsub]
    rfl
  rw [hheight', hone] at hheight
  omega

theorem value_of_provenAnswer {a : QueryAnswer} {proven : Proven Bytes}
    (hproven : p.provenAnswer a = .ok proven) : proven.value = a.value := by
  unfold provenAnswer at hproven
  split at hproven
  · cases hproven
  · next proofOps _ =>
    cases hmerkle : merkleProof proofOps with
    | error e =>
        rw [hmerkle] at hproven
        cases hproven
    | ok proof =>
        rw [hmerkle] at hproven
        cases hproven
        rfl

theorem height_of_provenAnswer {a : QueryAnswer} {proven : Proven Bytes}
    (hproven : p.provenAnswer a = .ok proven) : proven.height = ⟨p.revision, a.height + 1⟩ := by
  unfold provenAnswer at hproven
  split at hproven
  · cases hproven
  · next proofOps _ =>
    cases hmerkle : merkleProof proofOps with
    | error e =>
        rw [hmerkle] at hproven
        cases hproven
    | ok proof =>
        rw [hmerkle] at hproven
        cases hproven
        rfl

theorem checkAnswer_ok_iff {path : String} {prove : Bool} {a b : QueryAnswer} :
    checkAnswer path prove a = .ok b ↔
      b = a ∧ a.code = 0 ∧
        (prove = true → StorePath.insistsOnProof path = true → a.proofOps ≠ none) := by
  unfold checkAnswer
  by_cases hcode : a.code = 0
  · have hmissing : (prove && StorePath.insistsOnProof path && a.proofOps.isNone) = true ↔
        prove = true ∧ StorePath.insistsOnProof path = true ∧ a.proofOps = none := by
      rw [Bool.and_eq_true, Bool.and_eq_true, Option.isNone_iff_eq_none, and_assoc]
    rw [if_neg (not_not_intro hcode)]
    split
    · next hrefused =>
      obtain ⟨hprove, hinsists, hnone⟩ := hmissing.mp hrefused
      exact iff_of_false nofun fun ⟨_, _, hproof⟩ => hproof hprove hinsists hnone
    · next haccepted =>
      rw [Except.ok.injEq, eq_comm, iff_self_and]
      rintro -
      exact ⟨hcode, fun hprove hinsists hnone =>
        haccepted (hmissing.mpr ⟨hprove, hinsists, hnone⟩)⟩
  · rw [if_pos hcode]
    exact iff_of_false nofun fun ⟨_, hzero, _⟩ => hcode hzero

theorem yields_queryProof_ok {height : UInt64} {key : StoreKey} {proven : Proven Bytes}
    (hy : (p.queryProof height key.bytes).run.Yields h (.ok proven)) :
    ∃ a, p.Proves height key a ⟨proven.proof, proven.height⟩ h ∧ proven.value = a.value := by
  obtain ⟨h₁, queryHeight, h₂, rfl, hheight, hy₁⟩ := Attempt.yields_bind_ok_iff.mp hy
  obtain ⟨rfl, hread⟩ := Attempt.yields_ofExcept_iff.mp hheight
  obtain ⟨h₂, b, h₃, rfl, hquery, hy₂⟩ := Attempt.yields_bind_ok_iff.mp hy₁
  obtain ⟨rfl, hproven⟩ := Attempt.yields_ofExcept_iff.mp hy₂
  obtain ⟨a, rfl, hchecked⟩ | ⟨e, _, he⟩ := yields_queryAbci hquery
  · obtain ⟨rfl, hcode, _⟩ := checkAnswer_ok_iff.mp hchecked.symm
    have hvalue := value_of_provenAnswer hproven.symm
    refine ⟨b, ⟨queryHeight, hread.symm, rfl, hcode, ?_⟩, hvalue⟩
    rw [← hproven, ← hvalue]
  · cases he

theorem yields_proveEntry {height : UInt64} {key : StoreKey} {proof : PacketProof}
    (hy : (p.proveEntry height key).run.Yields h (.ok proof)) :
    ∃ a, p.Proves height key a proof h := by
  obtain ⟨h₁, proven, h₂, rfl, hquery, hy₁⟩ := Attempt.yields_bind_ok_iff.mp hy
  obtain ⟨rfl, rfl⟩ := Attempt.yields_pure_ok_iff.mp hy₁
  obtain ⟨a, hproves, _⟩ := yields_queryProof_ok hquery
  exact ⟨a, by simpa using hproves⟩

theorem yields_proveMember {height : UInt64} {key : StoreKey} {absent : String}
    {proof : PacketProof} (hy : (p.proveMember height key absent).run.Yields h (.ok proof)) :
    ∃ a, p.Proves height key a proof h ∧ a.value ≠ [] := by
  obtain ⟨h₁, proven, h₂, rfl, hquery, hy₁⟩ := Attempt.yields_bind_ok_iff.mp hy
  obtain ⟨a, hproves, hvalue⟩ := yields_queryProof_ok hquery
  by_cases hempty : proven.value.isEmpty
  · simp only [if_pos hempty, Attempt.throw_bind] at hy₁
    cases (Attempt.yields_throw_iff.mp hy₁).2
  · simp only [if_neg hempty] at hy₁
    obtain ⟨rfl, rfl⟩ := Attempt.yields_pure_ok_iff.mp hy₁
    refine ⟨a, by simpa using hproves, ?_⟩
    rw [← hvalue]
    exact fun hnil => hempty (List.isEmpty_iff.mpr hnil)

theorem Accepts.height_eq {a : QueryAnswer} {proof : Bytes} {height : Height}
    (haccepts : p.Accepts a proof height) : height = ⟨p.revision, a.height + 1⟩ :=
  height_of_provenAnswer haccepts.2

/-- A proof holds at the height it was asked for. -/
theorem Proves.height_eq {height : UInt64} {key : StoreKey} {a : QueryAnswer}
    {proof : PacketProof} (hproves : p.Proves height key a proof h) (hh : HeightsKept h)
    (hheight : 3 ≤ height) : proof.height = ⟨p.revision, height⟩ := by
  obtain ⟨queryHeight, hquery, rfl, haccepts⟩ := hproves
  obtain ⟨hlower, hzero⟩ := proofQueryHeight_of_le hheight
  rw [hlower, Except.ok.injEq] at hquery
  subst hquery
  have hanswered : a.height = height - 1 := hh _ _ a _ List.mem_cons_self .called hzero
  have hproof : proof.height = ⟨p.revision, a.height + 1⟩ := Accepts.height_eq haccepts
  rw [hproof, hanswered, UInt64.sub_add_cancel]

theorem checkAnswer_of_provenAnswer {path : String} {a : QueryAnswer} {proven : Proven Bytes}
    (hcode : a.code = 0) (hproven : p.provenAnswer a = .ok proven) :
    checkAnswer path true a = .ok a := by
  refine checkAnswer_ok_iff.mpr ⟨rfl, hcode, fun _ _ hnone => ?_⟩
  unfold provenAnswer at hproven
  rw [hnone] at hproven
  cases hproven

theorem Proves.yields_queryProof {height : UInt64} {key : StoreKey} {a : QueryAnswer}
    {proof : PacketProof} (hproves : p.Proves height key a proof h) :
    (p.queryProof height key.bytes).run.Yields h (.ok ⟨a.value, proof.proof, proof.height⟩) := by
  obtain ⟨queryHeight, hheight, rfl, hcode, hproven⟩ := hproves
  have hchecked : checkAnswer StorePath.ibcStore true a = .ok a :=
    checkAnswer_of_provenAnswer hcode hproven
  refine Attempt.yields_bind_ok_iff.mpr ⟨[], queryHeight, _, rfl, ?_, ?_⟩
  · exact Attempt.yields_ofExcept_iff.mpr ⟨rfl, hheight.symm⟩
  refine Attempt.yields_bind_ok_iff.mpr ⟨_, a, [], (List.append_nil _).symm, ?_, ?_⟩
  · refine Attempt.yields_request_bind_iff.mpr ⟨.ok a, [], rfl, ?_⟩
    exact Attempt.yields_ofExcept_iff.mpr ⟨rfl, hchecked.symm⟩
  · exact Attempt.yields_ofExcept_iff.mpr ⟨rfl, hproven.symm⟩

theorem Proves.yields_proveEntry {height : UInt64} {key : StoreKey} {a : QueryAnswer}
    {proof : PacketProof} (hproves : p.Proves height key a proof h) :
    (p.proveEntry height key).run.Yields h (.ok proof) := by
  refine Attempt.yields_bind_ok_iff.mpr
    ⟨h, _, [], (List.append_nil h).symm, hproves.yields_queryProof, ?_⟩
  exact Attempt.yields_pure_iff.mpr ⟨rfl, rfl⟩

theorem Proves.yields_proveMember {height : UInt64} {key : StoreKey} {absent : String}
    {a : QueryAnswer} {proof : PacketProof} (hproves : p.Proves height key a proof h)
    (hvalue : a.value ≠ []) : (p.proveMember height key absent).run.Yields h (.ok proof) := by
  refine Attempt.yields_bind_ok_iff.mpr
    ⟨h, _, [], (List.append_nil h).symm, hproves.yields_queryProof, ?_⟩
  have hfull : a.value.isEmpty = false := by
    simpa using hvalue
  simp only [hfull]
  exact Attempt.yields_pure_iff.mpr ⟨rfl, rfl⟩

/-- Packing a message takes one request, for the address, and fails as that does. -/
theorem yields_signedBy_answer_iff {t : Schema.MessageType} {m : String → Schema.Message}
    {r : Except RelayError Any} :
    (p.signedBy t m).run.Yields h r ↔ ∃ answer, h = [.answered (.address p) answer] ∧
      r = answer.map fun signer => Any.pack t (m signer) := by
  have haddress {g : List Exchange} {answer : Except RelayError String} :
      p.address.run.Yields g answer ↔ g = [.answered (.address p) answer] := yields_request_iff
  simp only [signedBy, Attempt.yields_bind_iff, haddress, Attempt.yields_pure_iff]
  constructor
  · rintro (⟨e, rfl, rfl⟩ | ⟨_, signer, _, rfl, rfl, rfl, rfl⟩)
    · exact ⟨.error e, rfl, rfl⟩
    · exact ⟨.ok signer, rfl, rfl⟩
  · rintro ⟨e | signer, rfl, rfl⟩
    · exact .inl ⟨e, rfl, rfl⟩
    · exact .inr ⟨_, signer, [], rfl, rfl, rfl, rfl⟩

theorem yields_signedBy_iff {t : Schema.MessageType} {m : String → Schema.Message} {msg : Any} :
    (p.signedBy t m).run.Yields h (.ok msg) ↔
      ∃ signer, h = [.answered (.address p) (.ok signer)] ∧ msg = Any.pack t (m signer) := by
  rw [yields_signedBy_answer_iff]
  constructor
  · rintro ⟨e | signer, rfl, heq⟩
    · cases heq
    · exact ⟨signer, rfl, Except.ok.inj heq⟩
  · rintro ⟨signer, rfl, rfl⟩
    exact ⟨.ok signer, rfl, rfl⟩

end Provider

end PacketRelay
