import PacketRelay.Proofs.Query
import PacketRelay.Proofs.Schema.Fields
import PacketRelay.Proofs.Tx.Content

/-!
# Histories of handshake proofs

A handshake proof rests on three answers.  The client state is read first; the consensus state and
the connection are asked for at once, and their answers arrive in either order.
-/

namespace PacketRelay

open Program
open Schema (Message)
open Schema.Message

/-- How the answers to two questions reach a program that asks them at once. -/
inductive Arrivals (p : Provider) (c₁ c₂ : NodeCall) (a₁ : c₁.Answer) (a₂ : c₂.Answer) :
    List Exchange → Prop where
  | firstAtOnce :
    Arrivals p c₁ c₂ a₁ a₂ [.answered (.start p c₁) (.inl a₁), .answered (.call p c₂) a₂]
  | secondAtOnce (ticket : Nat) :
    Arrivals p c₁ c₂ a₁ a₂ [.answered (.start p c₁) (.inr ticket),
      .answered (.start p c₂) (.inl a₂), .answered (.await c₁ ticket) a₁]
  | firstBefore (ticket ticket' : Nat) :
    Arrivals p c₁ c₂ a₁ a₂ [.answered (.start p c₁) (.inr ticket),
      .answered (.start p c₂) (.inr ticket'),
      .answered (.awaitEither c₁ ticket c₂ ticket') (.inl a₁), .answered (.await c₂ ticket') a₂]
  | secondBefore (ticket ticket' : Nat) :
    Arrivals p c₁ c₂ a₁ a₂ [.answered (.start p c₁) (.inr ticket),
      .answered (.start p c₂) (.inr ticket'),
      .answered (.awaitEither c₁ ticket c₂ ticket') (.inr a₂), .answered (.await c₁ ticket) a₁]

variable {p : Provider} {h : List Exchange}

theorem Arrivals.hands_first {c₁ c₂ : NodeCall} {a₁ : c₁.Answer} {a₂ : c₂.Answer}
    (harrive : Arrivals p c₁ c₂ a₁ a₂ h) : ∃ x ∈ h, x.Hands c₁ a₁ := by
  cases harrive with
  | firstAtOnce => exact ⟨_, .head _, .started⟩
  | secondAtOnce ticket => exact ⟨_, .tail _ (.tail _ (.head _)), .awaited⟩
  | firstBefore ticket ticket' => exact ⟨_, .tail _ (.tail _ (.head _)), .first⟩
  | secondBefore ticket ticket' => exact ⟨_, .tail _ (.tail _ (.tail _ (.head _))), .awaited⟩

theorem Arrivals.hands_second {c₁ c₂ : NodeCall} {a₁ : c₁.Answer} {a₂ : c₂.Answer}
    (harrive : Arrivals p c₁ c₂ a₁ a₂ h) : ∃ x ∈ h, x.Hands c₂ a₂ := by
  cases harrive with
  | firstAtOnce => exact ⟨_, .tail _ (.head _), .called⟩
  | secondAtOnce ticket => exact ⟨_, .tail _ (.head _), .started⟩
  | firstBefore ticket ticket' => exact ⟨_, .tail _ (.tail _ (.tail _ (.head _))), .awaited⟩
  | secondBefore ticket ticket' => exact ⟨_, .tail _ (.tail _ (.head _)), .second⟩

/-- The client state in an entry that must not be empty. -/
def clientStateOf (client : String) (value : Bytes) : Except RelayError Message := do
  if value.isEmpty then throw (.invalidResponse ("client " ++ client ++ " not found"))
  let packed := Any.ofMessage (← decodeAnswer .any value)
  if packed.typeUrl ≠ Schema.MessageType.clientState.typeUrl then
    throw (.decode ("expected tendermint client state, got " ++ packed.typeUrl))
  decodeAnswer .clientState packed.value

theorem value_of_clientStateOf {client : String} {value : Bytes} {state : Message}
    (hstate : clientStateOf client value = .ok state) : value ≠ [] := by
  rintro rfl
  cases hstate

namespace Provider

theorem yields_counted_ok_iff {α : Type} {answer : Except RelayError α} {a : α} :
    (p.counted answer).run.Yields h (.ok a) ↔ h = [] ∧ answer = .ok a := by
  constructor
  · intro hy
    obtain ⟨rfl, ⟨b, hb, rfl⟩ | ⟨e, he, _⟩⟩ := yields_counted hy
    · exact ⟨rfl, rfl⟩
    · cases he
  · rintro ⟨rfl, rfl⟩
    exact Attempt.yields_pure_iff.mpr ⟨rfl, rfl⟩

theorem yields_consensusAnswer_ok_iff {r : Except RelayError QueryAnswer} {proven : Proven Bytes} :
    (p.consensusAnswer r).run.Yields h (.ok proven) ↔
      h = [] ∧ ∃ a, r = .ok a ∧ proven.value = a.value ∧
        p.Accepts a proven.proof proven.height := by
  simp only [consensusAnswer, judgeAnswer, Attempt.yields_bind_ok_iff, yields_counted_ok_iff,
    Attempt.yields_ofExcept_iff]
  constructor
  · rintro ⟨_, b, _, rfl, ⟨_, a, _, rfl, ⟨rfl, rfl⟩, rfl, hchecked⟩, rfl, hproven⟩
    obtain ⟨rfl, hcode, _⟩ := checkAnswer_ok_iff.mp hchecked.symm
    have hvalue := value_of_provenAnswer hproven.symm
    refine ⟨rfl, b, rfl, hvalue, hcode, ?_⟩
    rw [← hproven, ← hvalue]
  · rintro ⟨rfl, a, rfl, hvalue, hcode, hproven⟩
    refine ⟨[], a, [], rfl, ⟨[], a, [], rfl, ⟨rfl, rfl⟩, rfl, ?_⟩, rfl, ?_⟩
    · exact (checkAnswer_of_provenAnswer hcode hproven).symm
    · rw [hproven, ← hvalue]

theorem yields_connectionAnswer_ok_iff {r : Except RelayError QueryAnswer}
    {proven : Proven Message} :
    (p.connectionAnswer r).run.Yields h (.ok proven) ↔
      h = [] ∧ ∃ a, r = .ok a ∧ decodeAnswer .connectionEnd a.value = .ok proven.value ∧
        p.Accepts a proven.proof proven.height := by
  simp only [connectionAnswer, Attempt.yields_bind_ok_iff, yields_consensusAnswer_ok_iff,
    Attempt.yields_ofExcept_iff, Attempt.yields_pure_ok_iff]
  constructor
  · rintro ⟨_, found, _, rfl, ⟨rfl, a, rfl, hvalue, haccepts⟩, _, value, _, rfl,
      ⟨rfl, hdecoded⟩, rfl, rfl⟩
    rw [hvalue] at hdecoded
    exact ⟨rfl, a, rfl, hdecoded.symm, haccepts⟩
  · rintro ⟨rfl, a, rfl, hdecoded, haccepts⟩
    exact ⟨[], ⟨a.value, proven.proof, proven.height⟩, [], rfl, ⟨rfl, a, rfl, rfl, haccepts⟩,
      [], proven.value, [], rfl, ⟨rfl, hdecoded.symm⟩, rfl, rfl⟩

theorem yields_queryProof_ok_iff {height : UInt64} {key : StoreKey} {proven : Proven Bytes} :
    (p.queryProof height key.bytes).run.Yields h (.ok proven) ↔
      ∃ a, p.Proves height key a ⟨proven.proof, proven.height⟩ h ∧ proven.value = a.value := by
  constructor
  · exact yields_queryProof_ok
  · rintro ⟨a, hproves, hvalue⟩
    have hy := hproves.yields_queryProof
    rw [← hvalue] at hy
    exact hy

/-- What is read from the answers about a consensus state and a connection. -/
structure ReadsBoth (p : Provider) (a b : QueryAnswer) (consensus : Proven Bytes)
    (found : Proven Message) : Prop where
  value : consensus.value = a.value
  first : p.Accepts a consensus.proof consensus.height
  decoded : decodeAnswer .connectionEnd b.value = .ok found.value
  second : p.Accepts b found.proof found.height

section Both

variable {r : Except RelayError QueryAnswer} {x : Attempt (Except RelayError QueryAnswer)}
  {consensus : Proven Bytes} {found : Proven Message}

theorem yields_consensus_connection_ok_iff :
    (do
      let a ← p.consensusAnswer r
      let b ← p.connectionAnswer (← x)
      return (a, b) : Attempt (Proven Bytes × Proven Message)).run.Yields h
        (.ok (consensus, found)) ↔
      ∃ a b, r = .ok a ∧ x.run.Yields h (.ok (.ok b)) ∧ p.ReadsBoth a b consensus found := by
  simp only [Attempt.yields_bind_ok_iff, yields_consensusAnswer_ok_iff,
    yields_connectionAnswer_ok_iff, Attempt.yields_pure_ok_iff]
  constructor
  · rintro ⟨_, _, _, rfl, ⟨rfl, a, rfl, hvalue, ha⟩, hx, r', _, rfl, hr, _, _, _, rfl,
      ⟨rfl, b, rfl, hdecoded, hb⟩, rfl, heq⟩
    cases heq
    exact ⟨a, b, rfl, by simpa using hr, hvalue, ha, hdecoded, hb⟩
  · rintro ⟨a, b, rfl, hx, hvalue, ha, hdecoded, hb⟩
    exact ⟨[], consensus, h, rfl, ⟨rfl, a, rfl, hvalue, ha⟩, h, .ok b, [], by simp, hx,
      [], found, [], rfl, ⟨rfl, b, rfl, hdecoded, hb⟩, rfl, rfl⟩

theorem yields_connection_consensus_ok_iff :
    (do
      let b ← p.connectionAnswer r
      let a ← p.consensusAnswer (← x)
      return (a, b) : Attempt (Proven Bytes × Proven Message)).run.Yields h
        (.ok (consensus, found)) ↔
      ∃ a b, r = .ok b ∧ x.run.Yields h (.ok (.ok a)) ∧ p.ReadsBoth a b consensus found := by
  simp only [Attempt.yields_bind_ok_iff, yields_consensusAnswer_ok_iff,
    yields_connectionAnswer_ok_iff, Attempt.yields_pure_ok_iff]
  constructor
  · rintro ⟨_, _, _, rfl, ⟨rfl, b, rfl, hdecoded, hb⟩, hx, r', _, rfl, hr, _, _, _, rfl,
      ⟨rfl, a, rfl, hvalue, ha⟩, rfl, heq⟩
    cases heq
    exact ⟨a, b, rfl, by simpa using hr, hvalue, ha, hdecoded, hb⟩
  · rintro ⟨a, b, rfl, hx, hvalue, ha, hdecoded, hb⟩
    exact ⟨[], found, h, rfl, ⟨rfl, b, rfl, hdecoded, hb⟩, h, .ok a, [], by simp, hx,
      [], consensus, [], rfl, ⟨rfl, a, rfl, hvalue, ha⟩, rfl, rfl⟩

end Both

theorem yields_consensusAndConnection_ok_iff {height : UInt64} {client connection : String}
    {consensusHeight : Height} {consensus : Proven Bytes} {found : Proven Message} :
    (p.consensusAndConnection height client connection consensusHeight).run.Yields h
        (.ok (consensus, found)) ↔
      ∃ queryHeight a b, proofQueryHeight height = .ok queryHeight ∧
        Arrivals p ((StoreKey.consensusState client consensusHeight).query queryHeight)
          ((StoreKey.connection connection).query queryHeight) (.ok a) (.ok b) h ∧
        p.ReadsBoth a b consensus found := by
  unfold consensusAndConnection
  rw [Attempt.yields_bind_ok_iff]
  simp only [Attempt.yields_ofExcept_iff]
  constructor
  · rintro ⟨_, queryHeight, h', rfl, ⟨rfl, hheight⟩, hy⟩
    refine ⟨queryHeight, ?_⟩
    obtain ⟨r, h₁, rfl, hy₁⟩ := Attempt.yields_request_bind_iff.mp hy
    clear hy
    cases r with
    | inl r =>
        obtain ⟨a, b, rfl, hx, hreads⟩ := yields_consensus_connection_ok_iff.mp hy₁
        obtain ⟨_, rfl, hb⟩ := Attempt.yields_request_iff.mp hx
        cases hb
        exact ⟨a, b, hheight.symm, .firstAtOnce, hreads⟩
    | inr ticket =>
        obtain ⟨r, h₂, rfl, hy₂⟩ := Attempt.yields_request_bind_iff.mp hy₁
        clear hy₁
        cases r with
        | inl r =>
            obtain ⟨a, b, rfl, hx, hreads⟩ := yields_connection_consensus_ok_iff.mp hy₂
            obtain ⟨_, rfl, ha⟩ := Attempt.yields_request_iff.mp hx
            cases ha
            exact ⟨a, b, hheight.symm, .secondAtOnce ticket, hreads⟩
        | inr ticket' =>
            obtain ⟨r, h₃, rfl, hy₃⟩ := Attempt.yields_request_bind_iff.mp hy₂
            clear hy₂
            cases r with
            | inl r =>
                obtain ⟨a, b, rfl, hx, hreads⟩ := yields_consensus_connection_ok_iff.mp hy₃
                obtain ⟨_, rfl, hb⟩ := Attempt.yields_request_iff.mp hx
                cases hb
                exact ⟨a, b, hheight.symm, .firstBefore ticket ticket', hreads⟩
            | inr r =>
                obtain ⟨a, b, rfl, hx, hreads⟩ := yields_connection_consensus_ok_iff.mp hy₃
                obtain ⟨_, rfl, ha⟩ := Attempt.yields_request_iff.mp hx
                cases ha
                exact ⟨a, b, hheight.symm, .secondBefore ticket ticket', hreads⟩
  · rintro ⟨queryHeight, a, b, hheight, harrive, hreads⟩
    refine ⟨[], queryHeight, h, rfl, ⟨rfl, hheight.symm⟩, ?_⟩
    have hask {q : Request} {r : q.Answer} :
        (Attempt.request q).run.Yields [.answered q r] (.ok r) :=
      Attempt.yields_request_iff.mpr ⟨r, rfl, rfl⟩
    cases harrive with
    | firstAtOnce =>
        refine Attempt.yields_request_bind_iff.mpr ⟨.inl (.ok a), _, rfl, ?_⟩
        exact yields_consensus_connection_ok_iff.mpr ⟨a, b, rfl, hask, hreads⟩
    | secondAtOnce ticket =>
        refine Attempt.yields_request_bind_iff.mpr ⟨.inr ticket, _, rfl, ?_⟩
        refine Attempt.yields_request_bind_iff.mpr ⟨.inl (.ok b), _, rfl, ?_⟩
        exact yields_connection_consensus_ok_iff.mpr ⟨a, b, rfl, hask, hreads⟩
    | firstBefore ticket ticket' =>
        refine Attempt.yields_request_bind_iff.mpr ⟨.inr ticket, _, rfl, ?_⟩
        refine Attempt.yields_request_bind_iff.mpr ⟨.inr ticket', _, rfl, ?_⟩
        refine Attempt.yields_request_bind_iff.mpr ⟨.inl (.ok a), _, rfl, ?_⟩
        exact yields_consensus_connection_ok_iff.mpr ⟨a, b, rfl, hask, hreads⟩
    | secondBefore ticket ticket' =>
        refine Attempt.yields_request_bind_iff.mpr ⟨.inr ticket, _, rfl, ?_⟩
        refine Attempt.yields_request_bind_iff.mpr ⟨.inr ticket', _, rfl, ?_⟩
        refine Attempt.yields_request_bind_iff.mpr ⟨.inr (.ok b), _, rfl, ?_⟩
        exact yields_connection_consensus_ok_iff.mpr ⟨a, b, rfl, hask, hreads⟩

theorem clientState_eq (height : UInt64) (client : String) : p.clientState height client = (do
    let proven ← p.queryProof height (StoreKey.clientState client).bytes
    let state ← Attempt.ofExcept (clientStateOf client proven.value)
    return ⟨state, proven.proof, proven.height⟩) := by
  have hok {α β : Type} (a : α) (f : α → Attempt β) : (Attempt.ofExcept (.ok a) >>= f) = f a := rfl
  have hok' {α β : Type} (a : α) (f : α → Except RelayError β) : (Except.ok a >>= f) = f a := rfl
  unfold clientState clientStateOf
  refine congrArg (_ >>= ·) (funext fun proven => ?_)
  by_cases hempty : proven.value.isEmpty
  · simp only [hempty]
    rfl
  cases hpacked : decodeAnswer .any proven.value with
  | error e =>
      simp only [hempty]
      rfl
  | ok packed =>
      simp only [hempty, hok, hok']
      by_cases htype : (Any.ofMessage packed).typeUrl = Schema.MessageType.clientState.typeUrl
      · simp only [htype]
        rfl
      · simp only [ne_eq, htype]
        rfl

theorem yields_clientState_ok_iff {height : UInt64} {client : String} {proven : Proven Message} :
    (p.clientState height client).run.Yields h (.ok proven) ↔
      ∃ a, p.Proves height (.clientState client) a ⟨proven.proof, proven.height⟩ h ∧
        clientStateOf client a.value = .ok proven.value := by
  rw [clientState_eq]
  simp only [Attempt.yields_bind_ok_iff, yields_queryProof_ok_iff, Attempt.yields_ofExcept_iff,
    Attempt.yields_pure_ok_iff]
  constructor
  · rintro ⟨h₁, found, _, rfl, ⟨a, hproves, hvalue⟩, _, state, _, rfl, ⟨rfl, hstate⟩, rfl, rfl⟩
    rw [hvalue] at hstate
    exact ⟨a, by simpa using hproves, hstate.symm⟩
  · rintro ⟨a, hproves, hstate⟩
    exact ⟨h, ⟨a.value, proven.proof, proven.height⟩, [], by simp, ⟨a, hproves, rfl⟩,
      [], proven.value, [], rfl, ⟨rfl, hstate.symm⟩, rfl, rfl⟩

end Provider

/-- The answers about the client state, the consensus state and the connection. -/
structure HandshakeAnswers where
  client : QueryAnswer
  consensus : QueryAnswer
  connection : QueryAnswer

/-- All three were given at this height. -/
def HandshakeAnswers.GivenAt (a : HandshakeAnswers) (height : UInt64) : Prop :=
  a.client.height = height ∧ a.consensus.height = height ∧ a.connection.height = height

namespace Provider

/-- A handshake proof was made from these answers.  The values of the consensus state and of the
connection may be empty, and the heights of the first two proofs are left out. -/
structure RestsOn (p : Provider) (info : ConnectionInfo) (height : UInt64) (a : HandshakeAnswers)
    (proof : ConnectionProof) (h : List Exchange) : Prop where
  asked : ∃ queryHeight state h', proofQueryHeight height = .ok queryHeight ∧
    h = .answered (.call p ((StoreKey.clientState info.clientId).query queryHeight))
      (.ok a.client) :: h' ∧
    clientStateOf info.clientId a.client.value = .ok state ∧ proof.clientState = some state ∧
    Arrivals p
      ((StoreKey.consensusState info.clientId (clientLatestHeight state)).query queryHeight)
      ((StoreKey.connection info.connectionId).query queryHeight) (.ok a.consensus)
      (.ok a.connection) h'
  decoded : ∃ found, decodeAnswer .connectionEnd a.connection.value = .ok found
  client : ∃ proven, p.Accepts a.client proof.clientStateProof proven
  consensus : ∃ proven, p.Accepts a.consensus proof.consensusStateProof proven
  connection : p.Accepts a.connection proof.connectionStateProof proof.height
  proven : proof.connectionStateProof ≠ []

theorem yields_connectionHandshakeProof_ok_iff {info : ConnectionInfo} {height : UInt64}
    {proof : ConnectionProof} :
    (p.connectionHandshakeProof info height).run.Yields h (.ok proof) ↔
      ∃ a, p.RestsOn info height a proof h := by
  constructor
  · intro hy
    obtain ⟨h₁, made, h₂, rfl, hmade, hy₁⟩ := Attempt.yields_bind_ok_iff.mp hy
    by_cases hempty : made.connectionStateProof.isEmpty
    · simp only [if_pos hempty, Attempt.throw_bind] at hy₁
      cases (Attempt.yields_throw_iff.mp hy₁).2
    simp only [if_neg hempty] at hy₁
    obtain ⟨rfl, rfl⟩ := Attempt.yields_pure_ok_iff.mp hy₁
    obtain ⟨g₁, state, g₂, rfl, hstate, hy₂⟩ := Attempt.yields_bind_ok_iff.mp hmade
    obtain ⟨client, ⟨queryHeight, hheight, rfl, hclient⟩, hread⟩ :=
      yields_clientState_ok_iff.mp hstate
    obtain ⟨g₂, ⟨consensus, found⟩, g₃, rfl, hboth, hy₃⟩ := Attempt.yields_bind_ok_iff.mp hy₂
    obtain ⟨rfl, rfl⟩ := Attempt.yields_pure_ok_iff.mp hy₃
    obtain ⟨queryHeight', a, b, hheight', harrive, _, hfirst, hdecoded, hsecond⟩ :=
      yields_consensusAndConnection_ok_iff.mp hboth
    rw [hheight, Except.ok.injEq] at hheight'
    subst hheight'
    refine ⟨⟨client, a, b⟩, ⟨queryHeight, state.value, g₂, hheight, by simp; rfl, hread, rfl,
      harrive⟩, ⟨_, hdecoded⟩, ⟨_, hclient⟩, ⟨_, hfirst⟩, hsecond, ?_⟩
    exact fun hnil => hempty (List.isEmpty_iff.mpr hnil)
  · rintro ⟨a, ⟨queryHeight, state, h', hheight, rfl, hread, hstate, harrive⟩, ⟨found, hdecoded⟩,
      ⟨first, hclient⟩, ⟨second, hconsensus⟩, hconnection, hproven⟩
    have hfull : proof.connectionStateProof.isEmpty = false := by
      simpa using hproven
    have hclientState : (p.clientState height info.clientId).run.Yields
        [.answered (.call p ((StoreKey.clientState info.clientId).query queryHeight))
          (.ok a.client)] (.ok ⟨state, proof.clientStateProof, first⟩) :=
      yields_clientState_ok_iff.mpr ⟨a.client, ⟨queryHeight, hheight, rfl, hclient⟩, hread⟩
    have hboth : (p.consensusAndConnection height info.clientId info.connectionId
        (clientLatestHeight state)).run.Yields h' (.ok (⟨a.consensus.value,
          proof.consensusStateProof, second⟩, ⟨found, proof.connectionStateProof, proof.height⟩)) :=
      yields_consensusAndConnection_ok_iff.mpr
        ⟨queryHeight, a.consensus, a.connection, hheight, harrive, rfl, hconsensus, hdecoded,
          hconnection⟩
    have hmade : (p.handshakeProof height info.clientId info.connectionId).run.Yields
        ([.answered (.call p ((StoreKey.clientState info.clientId).query queryHeight))
          (.ok a.client)] ++ h') (.ok proof) := by
      refine Attempt.yields_bind_ok_iff.mpr ⟨_, _, _, rfl, hclientState, ?_⟩
      refine Attempt.yields_bind_ok_iff.mpr ⟨_, _, [], by simp, hboth, ?_⟩
      refine Attempt.yields_pure_ok_iff.mpr ⟨rfl, ?_⟩
      rw [← hstate]
    refine Attempt.yields_bind_ok_iff.mpr ⟨_, proof, [], by simp, hmade, ?_⟩
    simp only [hfull]
    exact Attempt.yields_pure_ok_iff.mpr ⟨rfl, rfl⟩

variable {info : ConnectionInfo} {height : UInt64} {a : HandshakeAnswers} {proof : ConnectionProof}

theorem RestsOn.height_eq (hrests : p.RestsOn info height a proof h) :
    proof.height = ⟨p.revision, a.connection.height + 1⟩ := hrests.connection.height_eq

/-- The proofs are of one height exactly if the chain did not move between the answers. -/
theorem RestsOn.givenAt_iff (hrests : p.RestsOn info height a proof h) :
    a.GivenAt (proof.height.revisionHeight - 1) ↔
      a.client.height = a.connection.height ∧ a.consensus.height = a.connection.height := by
  have hheight : proof.height.revisionHeight - 1 = a.connection.height := by
    rw [hrests.height_eq, UInt64.add_sub_cancel]
  rw [hheight]
  exact ⟨fun hgiven => ⟨hgiven.1, hgiven.2.1⟩, fun hsame => ⟨hsame.1, hsame.2, rfl⟩⟩

theorem RestsOn.givenAt_of_heightsKept (hrests : p.RestsOn info height a proof h)
    (hh : HeightsKept h) (hheight : 3 ≤ height) : a.GivenAt (height - 1) := by
  obtain ⟨queryHeight, state, h', hquery, rfl, _, _, harrive⟩ := hrests.asked
  obtain ⟨hlower, hzero⟩ := proofQueryHeight_of_le hheight
  rw [hlower, Except.ok.injEq] at hquery
  subst hquery
  obtain ⟨x, hx, hconsensus⟩ := harrive.hands_first
  obtain ⟨y, hy, hconnection⟩ := harrive.hands_second
  refine ⟨?_, ?_, ?_⟩
  · exact hh _ _ a.client _ List.mem_cons_self .called hzero
  · exact hh _ _ a.consensus x (List.mem_cons_of_mem _ hx) hconsensus hzero
  · exact hh _ _ a.connection y (List.mem_cons_of_mem _ hy) hconnection hzero

/-- A message carries all three proofs and, in one field, the height at which they should hold. -/
def CarriesHandshake (t : Schema.MessageType) (field connection client consensus : Nat)
    (proof : ConnectionProof) (msg : Any) : Prop :=
  ∃ fields, msg = Any.pack t fields ∧
    Height.ofMessage? (fields.message? field) = proof.height ∧
    fields.bytes connection = proof.connectionStateProof ∧
    fields.bytes client = proof.clientStateProof ∧
    fields.bytes consensus = proof.consensusStateProof

/-- The four fields may follow each other anywhere among parts that have none of them. -/
theorem carriesHandshake_pack (t : Schema.MessageType) (proof : ConnectionProof) {field : Nat}
    {front rest : Message} (hfront : ∀ n, field ≤ n → n ≤ field + 3 → front.lookup n = none)
    (hrest : ∀ n, field ≤ n → n ≤ field + 3 → rest.lookup n = none) :
    CarriesHandshake t field (field + 1) (field + 2) (field + 3) proof
      (Any.pack t (front ++ (ofMessage field proof.height.toMessage ++
        (ofBytes (field + 1) proof.connectionStateProof ++
          (ofBytes (field + 2) proof.clientStateProof ++
            (ofBytes (field + 3) proof.consensusStateProof ++ rest)))))) := by
  have habsent {n : Nat} (hlow : field ≤ n) (hhigh : n ≤ field + 3) (m : Message) :
      (front ++ m).bytes n = m.bytes n := bytes_append (hfront n hlow hhigh) m
  refine ⟨_, rfl, ?_, ?_, ?_, ?_⟩
  · exact Height.ofMessage?_append (hfront field (Nat.le_refl _) (by omega)) _ _
  · rw [habsent (by omega) (by omega), bytes_append (lookup_ofMessage_of_ne (by omega) _)]
    refine bytes_ofBytes_append ?_ _
    simp (disch := omega) only [List.lookup_append, lookup_ofBytes_of_ne, hrest, Option.or_none]
  · rw [habsent (by omega) (by omega), bytes_append (lookup_ofMessage_of_ne (by omega) _),
      bytes_append (lookup_ofBytes_of_ne (by omega) _)]
    refine bytes_ofBytes_append ?_ _
    simp (disch := omega) only [List.lookup_append, lookup_ofBytes_of_ne, hrest, Option.or_none]
  · rw [habsent (by omega) (by omega), bytes_append (lookup_ofMessage_of_ne (by omega) _),
      bytes_append (lookup_ofBytes_of_ne (by omega) _),
      bytes_append (lookup_ofBytes_of_ne (by omega) _)]
    exact bytes_ofBytes_append (hrest _ (by omega) (Nat.le_refl _)) _

theorem carries_connectionOpenTry {msg : Any}
    (hy : (p.connectionOpenTry info proof).run.Yields h (.ok msg)) :
    CarriesHandshake .msgConnectionOpenTry 7 8 9 10 proof msg := by
  obtain ⟨h₁, ⟨state, consensusHeight⟩, h₂, rfl, _, hsigned⟩ := Attempt.yields_bind_ok_iff.mp hy
  obtain ⟨signer, rfl, rfl⟩ := yields_signedBy_iff.mp hsigned
  have hfront (n : Nat) (hlow : 7 ≤ n) : (ofText 1 info.counterpartyClientId ++
      ofText 2 info.counterpartyConnectionId ++ ofMessage 3 state.toMessage ++ ofMessage 4
        (ofText 1 info.clientId ++ ofText 2 info.connectionId ++ ofMessage 3 storePrefix) ++
      ofMessages 6 [connectionVersion]).lookup n = none := by
    simp (disch := omega) only [List.lookup_append, lookup_ofText_of_ne, lookup_ofMessage_of_ne,
      lookup_ofMessages_of_ne, Option.or_none]
  have hrest (n : Nat) (hhigh : n ≤ 10) :
      (ofMessage 11 consensusHeight.toMessage ++ ofText 12 signer).lookup n = none := by
    simp (disch := omega) only [List.lookup_append, lookup_ofText_of_ne, lookup_ofMessage_of_ne,
      Option.or_none]
  have hpack := carriesHandshake_pack .msgConnectionOpenTry proof
    (fun n hlow _ => hfront n hlow) (fun n _ hhigh => hrest n hhigh)
  simpa only [List.append_assoc] using hpack

theorem carries_connectionOpenAck {msg : Any}
    (hy : (p.connectionOpenAck info proof).run.Yields h (.ok msg)) :
    CarriesHandshake .msgConnectionOpenAck 5 6 7 8 proof msg := by
  obtain ⟨h₁, ⟨state, consensusHeight⟩, h₂, rfl, _, hsigned⟩ := Attempt.yields_bind_ok_iff.mp hy
  obtain ⟨signer, rfl, rfl⟩ := yields_signedBy_iff.mp hsigned
  have hfront (n : Nat) (hlow : 5 ≤ n) : (ofText 1 info.counterpartyConnectionId ++
      ofText 2 info.connectionId ++ ofMessage 3 connectionVersion ++
      ofMessage 4 state.toMessage).lookup n = none := by
    simp (disch := omega) only [List.lookup_append, lookup_ofText_of_ne, lookup_ofMessage_of_ne,
      Option.or_none]
  have hrest (n : Nat) (hhigh : n ≤ 8) :
      (ofMessage 9 consensusHeight.toMessage ++ ofText 10 signer).lookup n = none := by
    simp (disch := omega) only [List.lookup_append, lookup_ofText_of_ne, lookup_ofMessage_of_ne,
      Option.or_none]
  have hpack := carriesHandshake_pack .msgConnectionOpenAck proof
    (fun n hlow _ => hfront n hlow) (fun n _ hhigh => hrest n hhigh)
  simpa only [List.append_assoc] using hpack

/-- A handshake proof names the height of its connection's proof alone.  That is the height of all
three proofs exactly if the chain stood still between the answers, as it does for a node that
answers at the height asked; the messages made from the proof carry it for all three. -/
theorem connectionHandshakeProof_height
    (hy : (p.connectionHandshakeProof info height).run.Yields h (.ok proof)) :
    (∃ a, p.RestsOn info height a proof h) ∧
    (∀ a, p.RestsOn info height a proof h →
      proof.height = ⟨p.revision, a.connection.height + 1⟩ ∧
      (a.GivenAt (proof.height.revisionHeight - 1) ↔
        a.client.height = a.connection.height ∧ a.consensus.height = a.connection.height) ∧
      (HeightsKept h → 3 ≤ height →
        a.GivenAt (height - 1) ∧ proof.height = ⟨p.revision, height⟩)) ∧
    ∀ (q : Provider) (info' : ConnectionInfo) (g : List Exchange) (msg : Any),
      ((q.connectionOpenTry info' proof).run.Yields g (.ok msg) →
        CarriesHandshake .msgConnectionOpenTry 7 8 9 10 proof msg) ∧
      ((q.connectionOpenAck info' proof).run.Yields g (.ok msg) →
        CarriesHandshake .msgConnectionOpenAck 5 6 7 8 proof msg) := by
  refine ⟨yields_connectionHandshakeProof_ok_iff.mp hy, ?_, ?_⟩
  · intro a hrests
    refine ⟨hrests.height_eq, hrests.givenAt_iff, ?_⟩
    intro hh hheight
    have hgiven := hrests.givenAt_of_heightsKept hh hheight
    refine ⟨hgiven, ?_⟩
    rw [hrests.height_eq, hgiven.2.2, UInt64.sub_add_cancel]
  · intro q info' g msg
    exact ⟨carries_connectionOpenTry, carries_connectionOpenAck⟩

/-- An answer with a value and a proof. -/
def storeAnswer (value : Bytes) (height : UInt64) : QueryAnswer :=
  ⟨0, "", "", [], value, some (Schema.Message.ofMessage 1 []), height⟩

theorem accepts_storeAnswer (value : Bytes) (height : UInt64) :
    p.Accepts (storeAnswer value height) [0x0a, 0x00] ⟨p.revision, height + 1⟩ := by
  have hencoded : (ofMessages 1 [[]]).encode = [0x0a, 0x00] := by
    decide +kernel
  refine ⟨rfl, ?_⟩
  rw [← hencoded]
  rfl

theorem decodeAnswer_encode {t : Schema.MessageType} {m : Message}
    (hm : m.Conforms Schema.nestingLimit t) (hsize : m.encode.length < 1 <<< 64) :
    decodeAnswer t m.encode = .ok m := by
  rw [decodeAnswer, Schema.decode_encode hm hsize]

/-- A client that knows nothing of its counterparty yet. -/
def bareClient : Any := ⟨Schema.MessageType.clientState.typeUrl, []⟩

theorem clientStateOf_bareClient (client : String) :
    clientStateOf client bareClient.toMessage.encode = .ok [] := by
  have hentry : bareClient.toMessage.encode.isEmpty = false := by
    decide +kernel
  have hsize : bareClient.toMessage.encode.length < 1 <<< 64 := by
    decide +kernel
  have hpacked := decodeAnswer_encode (bareClient.conforms _) hsize
  have hunpacked : Any.ofMessage bareClient.toMessage = bareClient := by
    decide +kernel
  unfold clientStateOf
  rw [hentry, hpacked]
  change (do
    let packed := Any.ofMessage bareClient.toMessage
    if packed.typeUrl ≠ Schema.MessageType.clientState.typeUrl then
      throw (.decode ("expected tendermint client state, got " ++ packed.typeUrl))
    decodeAnswer .clientState packed.value) = Except.ok []
  rw [hunpacked]
  rfl

/-- Asked for its latest state, a node answers about the client, the consensus state and the
connection at three heights, the last two with these values. -/
theorem restsOn_storeAnswers (p : Provider) (info : ConnectionInfo) (consensus : Bytes)
    {connection : Bytes} {found : Message}
    (hfound : decodeAnswer .connectionEnd connection = .ok found) (x y z : UInt64) :
    ∃ h, p.RestsOn info 0
      ⟨storeAnswer bareClient.toMessage.encode x, storeAnswer consensus y, storeAnswer connection z⟩
      ⟨some [], [0x0a, 0x00], [0x0a, 0x00], [0x0a, 0x00], ⟨p.revision, z + 1⟩⟩ h := by
  refine ⟨_, ⟨0, [], _, rfl, rfl, clientStateOf_bareClient _, rfl, .firstAtOnce⟩,
    ⟨found, hfound⟩, ⟨_, accepts_storeAnswer _ _⟩, ⟨_, accepts_storeAnswer _ _⟩,
    accepts_storeAnswer _ _, by simp⟩

/-- One end of a connection. -/
def handshakeEnd : Provider :=
  ⟨0, ⟨"near", "key", "cosmos", 1, ⟨0, "stake"⟩, 0, 0, .direct, .ofSeconds 10, .ofSeconds 1,
    ⟨1, .ofMillis 10, true⟩⟩, []⟩

def handshakeInfo : ConnectionInfo := ⟨0, "connection-3", "07-tendermint-0", "", "", none⟩

/-- The latest state was asked for, and the chain moved on between the answers. -/
theorem connectionHandshakeProof_height_moving : ∃ h proof a,
    (handshakeEnd.connectionHandshakeProof handshakeInfo 0).run.Yields h (.ok proof) ∧
    handshakeEnd.RestsOn handshakeInfo 0 a proof h ∧ a.client.height = 9 ∧
    a.consensus.height = 10 ∧ a.connection.height = 11 ∧
    ¬ a.GivenAt (proof.height.revisionHeight - 1) := by
  have hfill : Schema.Fills (Message.Conforms 99) Schema.MessageType.connectionEnd.slots
      (ofText 1 handshakeInfo.clientId ++ (ofMessages 2 [] ++ ([] ++ ([] ++ ([] ++ []))))) :=
    .cons (Schema.holds_ofText rfl _) <| .cons (Schema.holds_ofMessages rfl (by simp)) <|
      .cons (.absent _) <| .cons (.absent _) <| .cons (.absent _) .nil
  have hfound := decodeAnswer_encode hfill (by decide +kernel)
  obtain ⟨h, hrests⟩ :=
    restsOn_storeAnswers handshakeEnd handshakeInfo [0x63, 0x73] hfound 9 10 11
  have hy := yields_connectionHandshakeProof_ok_iff.mpr ⟨_, hrests⟩
  obtain ⟨_, hheights, _⟩ := connectionHandshakeProof_height hy
  obtain ⟨_, hiff, _⟩ := hheights _ hrests
  refine ⟨h, _, _, hy, hrests, rfl, rfl, rfl, fun hgiven => ?_⟩
  exact absurd (hiff.mp hgiven).1 (by decide)

end Provider

end PacketRelay
