import PacketRelay.Proofs.Handshake

/-!
# Proofs of entries that are there

An answer about an entry that is missing has a proof too, but no value.  Packet commitments,
acknowledgements, client states and channels are proven by an answer with a value only.  For
connections and consensus states the value is not looked at, and a missing one is proven missing.
-/

namespace PacketRelay

open Program
open Schema (Message)
open Schema.Message

namespace Provider

variable {p : Provider} {h : List Exchange} {α : Type}

/-- The operation proves an entry by an answer with a value, and fails on an answer without one. -/
def InsistsOn (p : Provider) (height : UInt64) (key : StoreKey) (operation : Attempt α)
    (proof : α → PacketProof) : Prop :=
  ∀ h res, operation.run.Yields h res →
    (∀ v, res = .ok v → ∃ a, p.Proves height key a (proof v) h ∧ a.value ≠ []) ∧
    ∀ queryHeight a, .answered (.call p (key.query queryHeight)) (.ok a) ∈ h → a.value = [] →
      ∃ e, res = .error e

/-- The one answer of a proof is the only one in its history. -/
theorem Proves.eq_of_mem {height queryHeight : UInt64} {key : StoreKey} {a b : QueryAnswer}
    {proof : PacketProof} (hproves : p.Proves height key a proof h)
    (hmem : .answered (.call p (key.query queryHeight)) (.ok b) ∈ h) : b = a := by
  obtain ⟨_, _, rfl, _⟩ := hproves
  simp only [StoreKey.query, List.mem_singleton, Exchange.answered.injEq] at hmem
  cases hmem.1
  exact Except.ok.inj (eq_of_heq hmem.2)

theorem insistsOn_of {height : UInt64} {key : StoreKey} {operation : Attempt α}
    {proof : α → PacketProof}
    (hok : ∀ h v, operation.run.Yields h (.ok v) →
      ∃ a, p.Proves height key a (proof v) h ∧ a.value ≠ []) :
    p.InsistsOn height key operation proof := by
  intro h res hy
  constructor
  · rintro v rfl
    exact hok h v hy
  · intro queryHeight b hmem hempty
    cases res with
    | error e => exact ⟨e, rfl⟩
    | ok v =>
        obtain ⟨a, hproves, hvalue⟩ := hok h v hy
        rw [hproves.eq_of_mem hmem] at hempty
        exact absurd hempty hvalue

theorem insistsOn_proveMember (height : UInt64) (key : StoreKey) (absent : String) :
    p.InsistsOn height key (p.proveMember height key absent) fun proof => proof :=
  insistsOn_of fun _ _ hy => yields_proveMember hy

theorem insistsOn_clientState (height : UInt64) (client : String) :
    p.InsistsOn height (.clientState client) (p.clientState height client)
      fun proven => ⟨proven.proof, proven.height⟩ := by
  apply insistsOn_of
  intro h proven hy
  obtain ⟨a, hproves, hstate⟩ := yields_clientState_ok_iff.mp hy
  exact ⟨a, hproves, value_of_clientStateOf hstate⟩

theorem yields_channel {height : UInt64} {channel port : String} {proven : Proven Message}
    (hy : (p.channel height channel port).run.Yields h (.ok proven)) :
    ∃ a, p.Proves height (.channelEnd port channel) a ⟨proven.proof, proven.height⟩ h ∧
      a.value ≠ [] := by
  obtain ⟨h₁, found, h₂, rfl, hquery, hy₁⟩ := Attempt.yields_bind_ok_iff.mp hy
  obtain ⟨a, hproves, hvalue⟩ := yields_queryProof_ok hquery
  by_cases hempty : found.value.isEmpty
  · simp only [if_pos hempty, Attempt.throw_bind] at hy₁
    cases (Attempt.yields_throw_iff.mp hy₁).2
  simp only [if_neg hempty] at hy₁
  obtain ⟨g, value, g', rfl, hdecoded, hy₂⟩ := Attempt.yields_bind_ok_iff.mp hy₁
  obtain ⟨rfl, _⟩ := Attempt.yields_ofExcept_iff.mp hdecoded
  obtain ⟨rfl, rfl⟩ := Attempt.yields_pure_ok_iff.mp hy₂
  refine ⟨a, by simpa using hproves, ?_⟩
  rw [← hvalue]
  exact fun hnil => hempty (List.isEmpty_iff.mpr hnil)

theorem insistsOn_channelProof (info : ChannelInfo) (height : UInt64) :
    p.InsistsOn height (.channelEnd info.portId info.channelId) (p.channelProof info height)
      fun proof => ⟨proof.proof, proof.height⟩ := by
  apply insistsOn_of
  intro h proof hy
  obtain ⟨h₁, found, h₂, rfl, hfound, hy₁⟩ := Attempt.yields_bind_ok_iff.mp hy
  obtain ⟨a, hproves, hvalue⟩ := yields_channel hfound
  split at hy₁
  · cases (Attempt.yields_throw_iff.mp hy₁).2
  · obtain ⟨rfl, rfl⟩ := Attempt.yields_pure_ok_iff.mp hy₁
    exact ⟨a, by simpa using hproves, hvalue⟩

theorem yields_connectionProof_ok_iff {info : ConnectionInfo} {height : UInt64}
    {proof : ConnectionProof} :
    (p.connectionProof info height).run.Yields h (.ok proof) ↔
      ∃ a found, p.Proves height (.connection info.connectionId) a
        ⟨proof.connectionStateProof, proof.height⟩ h ∧
      decodeAnswer .connectionEnd a.value = .ok found ∧
      proof = ⟨none, [], [], proof.connectionStateProof, proof.height⟩ := by
  simp only [connectionProof, connection, Attempt.yields_bind_ok_iff, yields_queryProof_ok_iff,
    Attempt.yields_ofExcept_iff, Attempt.yields_pure_ok_iff]
  constructor
  · rintro ⟨_, found, _, rfl, ⟨h₁, proven, _, rfl, ⟨a, hproves, hvalue⟩, _, value, _, rfl,
      ⟨rfl, hdecoded⟩, rfl, rfl⟩, rfl, rfl⟩
    rw [hvalue] at hdecoded
    exact ⟨a, value, by simpa using hproves, hdecoded.symm, rfl⟩
  · rintro ⟨a, found, hproves, hdecoded, hproof⟩
    refine ⟨h, ⟨found, proof.connectionStateProof, proof.height⟩, [], by simp, ?_, rfl, hproof⟩
    exact ⟨h, ⟨a.value, proof.connectionStateProof, proof.height⟩, [], by simp,
      ⟨a, hproves, rfl⟩, [], found, [], rfl, ⟨rfl, hdecoded.symm⟩, rfl, rfl⟩

theorem RestsOn.client_value {info : ConnectionInfo} {height : UInt64} {a : HandshakeAnswers}
    {proof : ConnectionProof} (hrests : p.RestsOn info height a proof h) : a.client.value ≠ [] := by
  obtain ⟨_, _, _, _, _, hstate, _⟩ := hrests.asked
  exact value_of_clientStateOf hstate

theorem decodeAnswer_connectionEnd_nil : decodeAnswer .connectionEnd [] = .ok [] := rfl

/-- Which proofs insist on a value.  Those of packet commitments, acknowledgements, client states
and channels do.  In a handshake proof the client state does, and the consensus state and the
connection do not; neither does the connection in a proof of its own. -/
theorem memberProofs_insist (p : Provider) :
    (∀ packet height, p.InsistsOn height
      (.commitment packet.sourcePort packet.sourceChannel packet.sequence)
      (p.packetCommitment packet height) fun proof => proof) ∧
    (∀ packet height, p.InsistsOn height
      (.acknowledgement packet.destPort packet.destChannel packet.sequence)
      (p.packetAcknowledgement packet height) fun proof => proof) ∧
    (∀ height client, p.InsistsOn height (.clientState client) (p.clientState height client)
      fun proven => ⟨proven.proof, proven.height⟩) ∧
    (∀ info height, p.InsistsOn height (.channelEnd info.portId info.channelId)
      (p.channelProof info height) fun proof => ⟨proof.proof, proof.height⟩) ∧
    (∀ info height h proof, (p.connectionHandshakeProof info height).run.Yields h (.ok proof) ↔
      ∃ a, p.RestsOn info height a proof h) ∧
    (∀ info height a proof h, p.RestsOn info height a proof h → a.client.value ≠ []) ∧
    (∀ info height h proof, (p.connectionProof info height).run.Yields h (.ok proof) ↔
      ∃ a found, p.Proves height (.connection info.connectionId) a
        ⟨proof.connectionStateProof, proof.height⟩ h ∧
      decodeAnswer .connectionEnd a.value = .ok found ∧
      proof = ⟨none, [], [], proof.connectionStateProof, proof.height⟩) ∧
    ∀ info height a proof h, p.Proves height (.connection info.connectionId) a proof h →
      a.value = [] → (p.connectionProof info height).run.Yields h
        (.ok ⟨none, [], [], proof.proof, proof.height⟩) := by
  refine ⟨fun _ _ => insistsOn_proveMember _ _ _, fun _ _ => insistsOn_proveMember _ _ _,
    insistsOn_clientState, insistsOn_channelProof,
    fun _ _ _ _ => yields_connectionHandshakeProof_ok_iff, fun _ _ _ _ _ => RestsOn.client_value,
    fun _ _ _ _ => yields_connectionProof_ok_iff, ?_⟩
  intro info height a proof h hproves hempty
  refine yields_connectionProof_ok_iff.mpr ⟨a, [], hproves, ?_, rfl⟩
  rw [hempty]
  exact decodeAnswer_connectionEnd_nil

/-- A handshake proof whose consensus state and connection are missing, and a proof of a missing
connection. -/
theorem memberProofs_insist_missing : ∃ h g proof only a b,
    handshakeEnd.RestsOn handshakeInfo 0 a proof h ∧ a.consensus.value = [] ∧
    a.connection.value = [] ∧
    (handshakeEnd.connectionHandshakeProof handshakeInfo 0).run.Yields h (.ok proof) ∧
    g = [.answered (.call handshakeEnd ((StoreKey.connection handshakeInfo.connectionId).query 0))
      (.ok b)] ∧
    b.value = [] ∧ (handshakeEnd.connectionProof handshakeInfo 0).run.Yields g (.ok only) := by
  obtain ⟨_, _, _, _, hhandshake, _, _, hconnection⟩ := memberProofs_insist handshakeEnd
  obtain ⟨h, hrests⟩ := restsOn_storeAnswers handshakeEnd handshakeInfo []
    decodeAnswer_connectionEnd_nil 9 9 9
  have hproves : handshakeEnd.Proves 0 (.connection handshakeInfo.connectionId) (storeAnswer [] 9)
      ⟨[0x0a, 0x00], ⟨handshakeEnd.revision, 9 + 1⟩⟩
      [.answered (.call handshakeEnd ((StoreKey.connection handshakeInfo.connectionId).query 0))
        (.ok (storeAnswer [] 9))] :=
    ⟨0, rfl, rfl, accepts_storeAnswer [] 9⟩
  exact ⟨h, _, _, _, _, _, hrests, rfl, rfl, (hhandshake _ _ _ _).mpr ⟨_, hrests⟩, rfl, rfl,
    hconnection handshakeInfo 0 _ _ _ hproves rfl⟩

end Provider

end PacketRelay
