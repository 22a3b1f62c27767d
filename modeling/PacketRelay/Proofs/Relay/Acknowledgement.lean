import PacketRelay.Proofs.Packet.Search
import PacketRelay.Proofs.Query.Assembly
import PacketRelay.Proofs.Relay.Decision

/-!
# The message for an acknowledgement

An acknowledgement is read from the first event of the destination that records the packet, and
proven by the destination's entry for it.  The source is asked for nothing but its address.  The
message that goes back to the source holds the packet, its acknowledgement and the proof unchanged.
-/

namespace PacketRelay

open Program
open Schema (Message MessageType Fills)
open Schema.Message

section Content

/-- The fields of a packet stand in a message under their own numbers. -/
structure Packet.StandsIn (p : Packet) (m : Message) : Prop where
  sequence : m.number 1 = p.sequence
  sourcePort : m.text 2 = p.sourcePort
  sourceChannel : m.text 3 = p.sourceChannel
  destPort : m.text 4 = p.destPort
  destChannel : m.text 5 = p.destChannel
  data : m.bytes 6 = p.data
  timeoutHeight : Height.ofMessage? (m.message? 7) = p.timeoutHeight
  timeoutTimestamp : m.number 8 = p.timeoutTimestamp

theorem Packet.standsIn_toMessage (p : Packet) : p.StandsIn p.toMessage := by
  constructor <;>
    simp (disch := decide) only [toMessage, number, text, bytes, message?, List.lookup_append,
      lookup_ofNumber_of_ne, lookup_ofText_of_ne, lookup_ofBytes_of_ne, lookup_ofMessage_of_ne,
      Option.or_none, Option.none_or]
  case sequence => exact number_ofNumber 1 _
  case sourcePort => exact text_ofText 2 _
  case sourceChannel => exact text_ofText 3 _
  case destPort => exact text_ofText 4 _
  case destChannel => exact text_ofText 5 _
  case data => exact bytes_ofBytes 6 _
  case timeoutHeight => exact Height.ofMessage?_toMessage _
  case timeoutTimestamp => exact number_ofNumber 8 _

theorem Packet.conforms (p : Packet) (depth : Nat) :
    p.toMessage.Conforms (depth + 1) .packet := by
  have hfill : Fills (Message.Conforms depth) MessageType.packet.slots
      (ofNumber 1 p.sequence ++ (ofText 2 p.sourcePort ++ (ofText 3 p.sourceChannel ++
        (ofText 4 p.destPort ++ (ofText 5 p.destChannel ++ (ofBytes 6 p.data ++
          (ofMessage 7 p.timeoutHeight.toMessage ++ (ofNumber 8 p.timeoutTimestamp ++ [])))))))) :=
    .cons (Schema.holds_ofNumber rfl rfl) <| .cons (Schema.holds_ofText rfl _) <|
      .cons (Schema.holds_ofText rfl _) <| .cons (Schema.holds_ofText rfl _) <|
      .cons (Schema.holds_ofText rfl _) <| .cons (Schema.holds_ofBytes rfl _) <|
      .cons (Schema.holds_ofMessage rfl (Height.conforms _ _)) <|
      .cons (Schema.holds_ofNumber rfl rfl) .nil
  simp only [List.append_nil, ← List.append_assoc] at hfill
  exact hfill

/-- The message that carries a packet's acknowledgement with its proof. -/
def acknowledgementMessage (packet : Packet) (proof : PacketProof) (signer : String) : Message :=
  ofMessage 1 packet.toMessage ++ ofBytes 2 packet.ack ++ ofBytes 3 proof.proof
    ++ ofMessage 4 proof.height.toMessage ++ ofText 5 signer

/-- The message is signed by `signer` and has this packet, its acknowledgement and this proof. -/
structure Acknowledges (m : Message) (packet : Packet) (proof : PacketProof) (signer : String) :
    Prop where
  packetField : ∃ inner, m.message? 1 = some inner ∧ packet.StandsIn inner
  ackField : m.bytes 2 = packet.ack
  proofField : m.bytes 3 = proof.proof
  heightField : Height.ofMessage? (m.message? 4) = proof.height
  signerField : m.text 5 = signer

variable {packet : Packet} {proof : PacketProof} {signer : String}

theorem acknowledges_acknowledgementMessage :
    Acknowledges (acknowledgementMessage packet proof signer) packet proof signer := by
  constructor <;>
    simp (disch := decide) only [acknowledgementMessage, text, bytes, message?, List.lookup_append,
      lookup_ofText_of_ne, lookup_ofBytes_of_ne, lookup_ofMessage_of_ne, Option.or_none,
      Option.none_or]
  case packetField => exact ⟨packet.toMessage, rfl, packet.standsIn_toMessage⟩
  case ackField => exact bytes_ofBytes 2 _
  case proofField => exact bytes_ofBytes 3 _
  case heightField => exact Height.ofMessage?_toMessage _
  case signerField => exact text_ofText 5 _

theorem acknowledgementMessage_conforms (depth : Nat) :
    (acknowledgementMessage packet proof signer).Conforms (depth + 2) .msgAcknowledgement := by
  have hfill : Fills (Message.Conforms (depth + 1)) MessageType.msgAcknowledgement.slots
      (ofMessage 1 packet.toMessage ++ (ofBytes 2 packet.ack ++ (ofBytes 3 proof.proof ++
        (ofMessage 4 proof.height.toMessage ++ (ofText 5 signer ++ []))))) :=
    .cons (Schema.holds_ofMessage rfl (packet.conforms _)) <|
      .cons (Schema.holds_ofBytes rfl _) <| .cons (Schema.holds_ofBytes rfl _) <|
      .cons (Schema.holds_ofMessage rfl (Height.conforms _ _)) <|
      .cons (Schema.holds_ofText rfl _) .nil
  simp only [List.append_nil, ← List.append_assoc] at hfill
  exact hfill

/-- Byte strings have lengths of 64 bits. -/
theorem unpack_acknowledgementMessage
    (hsize : (acknowledgementMessage packet proof signer).encode.length < 1 <<< 64) :
    (Any.pack .msgAcknowledgement (acknowledgementMessage packet proof signer)).unpack
      .msgAcknowledgement = .ok (acknowledgementMessage packet proof signer) :=
  Any.unpack_pack (Schema.decode_encode (acknowledgementMessage_conforms 98) hsize)

end Content

section Evidence

namespace Provider

variable {p : Provider}

/-- The one exchange of a store query that was answered. -/
def queried (p : Provider) (key : StoreKey) (queryHeight : UInt64) (a : QueryAnswer) :
    List Exchange :=
  [.answered (.call p (key.query queryHeight)) (.ok a)]

variable {h : List Exchange} {height queryHeight : UInt64} {key : StoreKey} {a : QueryAnswer}

theorem queried_eq_of_mem {b : QueryAnswer} {queryHeight' : UInt64}
    (hmem : .answered (.call p (key.query queryHeight)) (.ok a) ∈ p.queried key queryHeight' b) :
    queryHeight' = queryHeight ∧ b = a := by
  simp only [queried, StoreKey.query, List.mem_singleton, Exchange.answered.injEq] at hmem
  cases hmem.1
  exact ⟨rfl, (Except.ok.inj (eq_of_heq hmem.2)).symm⟩

theorem yields_queryProof_answered {r : Except RelayError (Proven Bytes)}
    (hy : (p.queryProof height key.bytes).run.Yields h r)
    (hmem : .answered (.call p (key.query queryHeight)) (.ok a) ∈ h) :
    proofQueryHeight height = .ok queryHeight ∧ h = p.queried key queryHeight a ∧
      r = p.readProven a := by
  cases hheight : proofQueryHeight height with
  | error e =>
      rw [queryProof, hheight] at hy
      obtain ⟨rfl, _⟩ := Attempt.yields_throw_iff.mp hy
      cases hmem
  | ok queryHeight' =>
      obtain ⟨b, rfl, rfl⟩ | ⟨e, rfl, _⟩ := (yields_queryProof_iff hheight).mp hy
      · obtain ⟨rfl, rfl⟩ := queried_eq_of_mem hmem
        exact ⟨rfl, rfl, rfl⟩
      · simp [StoreKey.query] at hmem

theorem yields_queryProof_of (hheight : proofQueryHeight height = .ok queryHeight)
    (a : QueryAnswer) : (p.queryProof height key.bytes).run.Yields (p.queried key queryHeight a)
      (p.readProven a) := (yields_queryProof_iff hheight).mpr (.inl ⟨a, rfl, rfl⟩)

/-- The proof of an entry that has to be there. -/
def memberOf (absent : String) (proven : Proven Bytes) : Except RelayError PacketProof :=
  if proven.value.isEmpty then .error (.invalidResponse absent)
  else .ok ⟨proven.proof, proven.height⟩

theorem yields_proveMember_iff {absent : String} {r : Except RelayError PacketProof} :
    (p.proveMember height key absent).run.Yields h r ↔
      ∃ proven, (p.queryProof height key.bytes).run.Yields h proven ∧
        r = proven.bind (memberOf absent) := by
  have hmember (proven : Proven Bytes) {g : List Exchange} {r : Except RelayError PacketProof} :
      (do
        if proven.value.isEmpty then throw (.invalidResponse absent)
        return ⟨proven.proof, proven.height⟩ : Attempt PacketProof).run.Yields g r ↔
        g = [] ∧ r = memberOf absent proven := by
    unfold memberOf
    cases proven.value.isEmpty with
    | true => exact Attempt.yields_throw_iff
    | false => exact Attempt.yields_pure_iff
  rw [proveMember, Attempt.yields_bind_iff]
  constructor
  · rintro (⟨e, hquery, rfl⟩ | ⟨h₁, proven, h₂, rfl, hquery, hrest⟩)
    · exact ⟨.error e, hquery, rfl⟩
    · obtain ⟨rfl, rfl⟩ := (hmember proven).mp hrest
      exact ⟨.ok proven, by rwa [List.append_nil], rfl⟩
  · rintro ⟨e | proven, hquery, rfl⟩
    · exact .inl ⟨e, hquery, rfl⟩
    · exact .inr ⟨h, proven, [], (List.append_nil h).symm, hquery, (hmember proven).mpr ⟨rfl, rfl⟩⟩

/-- An answer without a value is refused, by its proof if that is malformed. -/
theorem refused_of_empty (p : Provider) (absent : String) (hcode : a.code = 0) (hvalue : a.value = []) :
    (¬ a.Malformed ∧ ∃ m, (p.readProven a).bind (memberOf absent) = .error (.invalidResponse m)) ∨
      a.Malformed ∧ (p.readProven a).bind (memberOf absent) = .error .malformedMessage := by
  unfold readProven checkAnswer
  rw [if_neg (not_not.mpr hcode)]
  cases hops : a.proofOps with
  | none =>
      left
      constructor
      · rintro ⟨ops, hsome, _⟩
        rw [hops] at hsome
        cases hsome
      · split
        · exact ⟨_, rfl⟩
        · refine ⟨"tendermint proof is nil", ?_⟩
          simp only [Except.bind, provenAnswer, hops]
          rfl
  | some ops =>
      rw [if_neg (by simp)]
      cases hmerkle : merkleProof ops with
      | error e =>
          obtain ⟨rfl, hop⟩ := merkleProof_error hmerkle
          refine .inr ⟨⟨ops, hops, hop⟩, ?_⟩
          simp only [Except.bind, provenAnswer, hops, hmerkle]
          rfl
      | ok m =>
          obtain ⟨proofs, hhold, _⟩ := merkleProof_ok_iff.mp hmerkle
          refine .inl ⟨?_, absent, ?_⟩
          · rintro ⟨ops', hops', op, hop, hnone⟩
            obtain rfl : ops = ops' := Option.some.inj (hops.symm.trans hops')
            obtain ⟨proof, hsome⟩ := hhold.exists_of_mem hop
            rw [hnone] at hsome
            cases hsome
          · have hread : p.provenAnswer a = .ok ⟨[], m.encode, ⟨p.revision, a.height + 1⟩⟩ := by
              simp only [provenAnswer, hops, hmerkle, hvalue]
              rfl
            simp [Except.bind, hread, memberOf]

theorem refused_of_code {absent : String} (hcode : a.code ≠ 0) :
    (p.readProven a).bind (memberOf absent) = .error (.abciQuery a.codespace a.code a.log) := by
  rw [readProven, checkAnswer, if_pos hcode]
  rfl

/-- A guarded proof whose query was answered ends with what the answer says. -/
theorem guarded_proveMember_answered {s : Signal} {absent : String}
    {r : Except RelayError PacketProof}
    (hg : Attempt.Guarded s (p.proveMember height key absent) h r)
    (hmem : .answered (.call p (key.query queryHeight)) (.ok a) ∈ h) :
    r = (p.readProven a).bind (memberOf absent) := by
  cases hg with
  | fired _ => simp at hmem
  | finished hy =>
      obtain ⟨proven, hquery, rfl⟩ := yields_proveMember_iff.mp hy
      have hmem := (List.mem_cons.mp hmem).resolve_left nofun
      rw [(yields_queryProof_answered hquery hmem).2.2]
  | @dropped n g q next _ hreach =>
      -- The answer ends the part, so there is no later request at which it could be dropped.
      obtain ⟨b⟩ := q.nonempty_answer
      obtain ⟨g', r', hrest⟩ := (next b).exists_yields
      have hy : (p.proveMember height key absent).run.Yields (g ++ .answered q b :: g') r' :=
        hreach.append (.step (.ask b) hrest)
      obtain ⟨proven, hquery, -⟩ := yields_proveMember_iff.mp hy
      have hmem := (List.mem_cons.mp hmem).resolve_left nofun
      have hmem := (List.mem_append.mp hmem).resolve_right (by simp)
      obtain ⟨_, hone, _⟩ := yields_queryProof_answered hquery (List.mem_append_left _ hmem)
      have hlength := congrArg List.length hone
      have hpos := List.length_pos_of_mem hmem
      simp only [queried, List.length_append, List.length_cons, List.length_nil] at hlength
      omega

end Provider

end Evidence

/-- The requests for an acknowledgement: calls to the destination, and the address of the source. -/
def Request.Acknowledging (source dest : Provider) : Request → Prop
  | .rest => True
  | .call p _ => p = dest
  | .record p m => p = dest ∧ m = .rpcError
  | .address p => p = source
  | _ => False

/-- The destination is searched and then queried, and gives these answers. -/
def Provider.asked (dest : Provider) (sequence : UInt64) (channel port : String)
    (txs : List TxResult) (queryHeight : UInt64) (a : QueryAnswer) : List Exchange :=
  .answered .rest () :: (dest.searched
      (packetSearch "write_acknowledgement" "dst" channel port sequence) txs ++
    .answered .rest () :: dest.queried (.acknowledgement port channel sequence) queryHeight a)

theorem Provider.answer_mem_asked {dest : Provider} {sequence : UInt64} {channel port : String}
    {txs : List TxResult} {queryHeight : UInt64} {a : QueryAnswer} :
    .answered (.call dest ((StoreKey.acknowledgement port channel sequence).query queryHeight))
      (.ok a) ∈ dest.asked sequence channel port txs queryHeight a := by
  simp [asked, queried]

/-- What an acknowledgement message is made from. -/
structure AckEvidence where
  txs : List TxResult
  packet : Packet
  queryHeight : UInt64
  answer : QueryAnswer
  proof : PacketProof
  signer : String

/-- The destination's search recorded the packet first, its entry for the acknowledgement has a
value and a proof at the height below the one given, and nothing else was asked but the address of
the source, which signs the message. -/
structure AckEvidence.Supports (ev : AckEvidence) (source dest : Provider)
    (destHeight sequence : UInt64) (channel port : String) (h : List Exchange) (msg : Any) :
    Prop where
  recorded : Packet.FirstRecorded "write_acknowledgement"
    (Packet.ReceivedWith channel port sequence) ev.txs ev.packet
  below : destHeight ≠ 1 ∧ destHeight ≠ 2 ∧ ev.queryHeight.toNat = destHeight.toNat - 1
  accepted : ev.answer.code = 0
  stored : ev.answer.value ≠ []
  vouched : dest.Vouches ev.answer ev.proof
  history : h = dest.asked sequence channel port ev.txs ev.queryHeight ev.answer ++
    [.answered (.address source) (.ok ev.signer)]
  message : msg = Any.pack .msgAcknowledgement
    (acknowledgementMessage ev.packet ev.proof ev.signer)

section Relaying

variable {source dest : Provider} {destHeight sequence : UInt64} {channel port : String}
  {s : Signal} {h : List Exchange}

theorem asks_relayAcknowledgement :
    Asks (Request.Acknowledging source dest)
      (relayAcknowledgement source dest destHeight sequence channel port s).run := by
  refine Attempt.asks_bind (Attempt.asks_guard trivial ?_) fun packet =>
    Attempt.asks_bind (Attempt.asks_guard trivial ?_) fun proof => ?_
  · exact Provider.asks_searchPacket (fun _ => rfl) ⟨rfl, rfl⟩
  · exact Provider.asks_proveMember (fun _ => rfl) ⟨rfl, rfl⟩
  · exact Provider.asks_signedBy rfl

theorem yields_receivedPacket_ok {packet : Packet}
    (hy : (dest.receivedPacket channel port sequence).run.Yields h (.ok packet)) :
    ∃ txs, h = dest.searched
        (Provider.packetSearch "write_acknowledgement" "dst" channel port sequence) txs ∧
      Packet.FirstRecorded "write_acknowledgement" (Packet.ReceivedWith channel port sequence) txs
        packet := by
  obtain ⟨txs, packet', rfl, hfirst, heq⟩ | ⟨_, _, _, heq⟩ | ⟨_, _, heq⟩ :=
    ((dest.looksUp_receivedPacket channel port sequence).run _ _).mp hy
  · cases heq
    exact ⟨txs, rfl, hfirst⟩
  · cases heq
  · cases heq

theorem yields_guarded_receivedPacket (s : Signal) {txs : List TxResult} {packet : Packet}
    (hfirst : Packet.FirstRecorded "write_acknowledgement"
      (Packet.ReceivedWith channel port sequence) txs packet) :
    (Attempt.guard s (dest.receivedPacket channel port sequence)).run.Yields
      (.answered .rest () :: dest.searched
        (Provider.packetSearch "write_acknowledgement" "dst" channel port sequence) txs)
      (.ok packet) := by
  have hsearch := ((dest.looksUp_receivedPacket channel port sequence).run _ _).mpr
    (.inl ⟨txs, packet, rfl, hfirst, rfl⟩)
  exact Attempt.yields_guard_of hsearch (by simp [Provider.searched, Exchange.IsAnswer])

theorem yields_relayAcknowledgement_ok_iff {msg : Any} :
    (relayAcknowledgement source dest destHeight sequence channel port s).run.Yields h (.ok msg) ↔
      ∃ ev : AckEvidence, ev.Supports source dest destHeight sequence channel port h msg := by
  constructor
  · intro hy
    obtain ⟨h₁, packet, h₂, rfl, hsearch, hy₁⟩ := Attempt.yields_bind_ok_iff.mp hy
    obtain ⟨g₁, rfl, hfound⟩ := Attempt.yields_guard_ok hsearch
    obtain ⟨txs, rfl, hfirst⟩ := yields_receivedPacket_ok hfound
    obtain ⟨h₂, proof, h₃, rfl, hprove, hy₂⟩ := Attempt.yields_bind_ok_iff.mp hy₁
    obtain ⟨g₂, rfl, hproved⟩ := Attempt.yields_guard_ok hprove
    obtain ⟨a, ⟨queryHeight, hheight, rfl, hcode, hproven⟩, hvalue⟩ :=
      Provider.yields_proveMember hproved
    obtain ⟨signer, rfl, rfl⟩ := Provider.yields_signedBy_iff.mp hy₂
    obtain ⟨rfl, rfl, rfl⟩ := hfirst.wanted
    exact ⟨⟨txs, packet, queryHeight, a, proof, signer⟩, {
      recorded := hfirst
      below := Provider.proofQueryHeight_ok_iff.mp hheight
      accepted := hcode
      stored := hvalue
      vouched := Provider.provenAnswer_ok_iff.mp hproven
      history := by simp [Provider.asked, Provider.queried, StoreKey.query]
      message := rfl }⟩
  · rintro ⟨⟨txs, packet, queryHeight, a, proof, signer⟩, hev⟩
    obtain ⟨hfirst, hheight, hcode, hvalue, hvouched, rfl, rfl⟩ := hev
    obtain ⟨rfl, rfl, rfl⟩ := hfirst.wanted
    have hproves : dest.Proves destHeight
        (.acknowledgement packet.destPort packet.destChannel packet.sequence) a proof
        (dest.queried _ queryHeight a) :=
      ⟨queryHeight, Provider.proofQueryHeight_ok_iff.mpr hheight, rfl, hcode,
        Provider.provenAnswer_ok_iff.mpr hvouched⟩
    rw [Provider.asked, List.cons_append, List.append_assoc]
    refine Attempt.yields_bind_ok_iff.mpr
      ⟨_, packet, _, rfl, yields_guarded_receivedPacket s hfirst, ?_⟩
    refine Attempt.yields_bind_ok_iff.mpr ⟨_, proof, _, rfl,
      Attempt.yields_guard_of (hproves.yields_proveMember hvalue) hproves.isAnswer, ?_⟩
    exact Provider.yields_signedBy_iff.mpr ⟨signer, rfl, rfl⟩

/-- The request reads no entry of a store. -/
def Request.ReadsNothing : Request → Prop
  | .call _ (.abciQuery ..) => False
  | _ => True

/-- A refused answer for the acknowledgement is what the run ends with. -/
theorem relayAcknowledgement_refused {r : Except RelayError Any} {queryHeight : UInt64}
    {a : QueryAnswer} {e : RelayError}
    (hy : (relayAcknowledgement source dest destHeight sequence channel port s).run.Yields h r)
    (hmem : .answered (.call dest
      ((StoreKey.acknowledgement port channel sequence).query queryHeight)) (.ok a) ∈ h)
    (hrefused : (dest.readProven a).bind (Provider.memberOf "invalid acknowledgement") =
      .error e) : r = .error e := by
  have hsearching : Asks Request.ReadsNothing
      (Attempt.guard s (dest.receivedPacket channel port sequence)).run :=
    Attempt.asks_guard trivial (Provider.asks_searchPacket (fun _ => trivial) trivial)
  obtain ⟨e', hsearch, _⟩ | ⟨h₁, packet, h₂, rfl, hsearch, hy₁⟩ := Attempt.yields_bind_iff.mp hy
  · exact (hsearch.asks hsearching _ hmem).elim
  have hmem := (List.mem_append.mp hmem).resolve_left (hsearch.asks hsearching _)
  obtain ⟨g₁, _, hfound⟩ := Attempt.yields_guard_ok hsearch
  obtain ⟨txs, _, hfirst⟩ := yields_receivedPacket_ok hfound
  obtain ⟨rfl, rfl, rfl⟩ := hfirst.wanted
  obtain ⟨e', hprove, rfl⟩ | ⟨h₂, proof, h₃, rfl, hprove, hy₂⟩ := Attempt.yields_bind_iff.mp hy₁
  · have hanswered := Provider.guarded_proveMember_answered (Attempt.yields_guard hprove) hmem
    rw [hrefused] at hanswered
    rw [Except.error.inj hanswered]
  · have hsigning : Asks Request.ReadsNothing (source.acknowledgePacket packet proof).run :=
      Provider.asks_signedBy trivial
    have hmem := (List.mem_append.mp hmem).resolve_right (hy₂.asks hsigning _)
    have hanswered := Provider.guarded_proveMember_answered (Attempt.yields_guard hprove) hmem
    rw [hrefused] at hanswered
    cases hanswered

theorem yields_relayAcknowledgement_refused (source : Provider) (s : Signal)
    {txs : List TxResult} {packet : Packet} {queryHeight : UInt64} {a : QueryAnswer} {e : RelayError}
    (hfirst : Packet.FirstRecorded "write_acknowledgement"
      (Packet.ReceivedWith channel port sequence) txs packet)
    (hheight : Provider.proofQueryHeight destHeight = .ok queryHeight)
    (hrefused : (dest.readProven a).bind (Provider.memberOf "invalid acknowledgement") =
      .error e) :
    (relayAcknowledgement source dest destHeight sequence channel port s).run.Yields
      (dest.asked sequence channel port txs queryHeight a) (.error e) := by
  obtain ⟨rfl, rfl, rfl⟩ := hfirst.wanted
  have hprove : (dest.packetAcknowledgement packet destHeight).run.Yields
      (dest.queried _ queryHeight a) (.error e) :=
    Provider.yields_proveMember_iff.mpr
      ⟨_, Provider.yields_queryProof_of hheight a, hrefused.symm⟩
  refine Attempt.yields_bind_iff.mpr
    (.inr ⟨_, packet, _, rfl, yields_guarded_receivedPacket s hfirst, ?_⟩)
  exact Attempt.yields_bind_iff.mpr (.inl ⟨e, Attempt.yields_guard_of hprove
    (by simp [Provider.queried, Exchange.IsAnswer]), rfl⟩)

/-- An acknowledgement is relayed as the destination recorded and proved it.  No node but that of
the destination is called.  A message is made exactly from evidence of the destination, and decodes
to it.  An answer with an error code or without a value is refused, the latter as invalid unless its
proof does not even decode. -/
theorem relayAcknowledgement_faithful (source dest : Provider) (destHeight sequence : UInt64)
    (channel port : String) (s : Signal) :
    (∀ h r, (relayAcknowledgement source dest destHeight sequence channel port s).run.Yields h r →
      ∀ x ∈ h, x.request.Acknowledging source dest) ∧
    (∀ h msg,
      (relayAcknowledgement source dest destHeight sequence channel port s).run.Yields h
        (.ok msg) ↔
      ∃ ev : AckEvidence, ev.Supports source dest destHeight sequence channel port h msg) ∧
    (∀ h msg (ev : AckEvidence), ev.Supports source dest destHeight sequence channel port h msg →
      msg.value.length < 1 <<< 64 →
      ∃ fields, msg.unpack .msgAcknowledgement = .ok fields ∧
        Acknowledges fields ev.packet ev.proof ev.signer) ∧
    (∀ h r queryHeight (a : QueryAnswer),
      (relayAcknowledgement source dest destHeight sequence channel port s).run.Yields h r →
      .answered (.call dest ((StoreKey.acknowledgement port channel sequence).query queryHeight))
        (.ok a) ∈ h →
      (a.code ≠ 0 → r = .error (.abciQuery a.codespace a.code a.log)) ∧
      (a.code = 0 → a.value = [] →
        (¬ a.Malformed → ∃ m, r = .error (.invalidResponse m)) ∧
        (a.Malformed → r = .error .malformedMessage))) := by
  refine ⟨fun h r hy => hy.asks asks_relayAcknowledgement,
    fun h msg => yields_relayAcknowledgement_ok_iff, ?_, ?_⟩
  · intro h msg ev hev hsize
    obtain ⟨_, _, _, _, _, _, rfl⟩ := hev
    exact ⟨_, unpack_acknowledgementMessage hsize, acknowledges_acknowledgementMessage⟩
  · intro h r queryHeight a hy hmem
    have hrefused {e : RelayError} := relayAcknowledgement_refused (e := e) hy hmem
    refine ⟨fun hcode => hrefused (Provider.refused_of_code hcode), fun hcode hvalue => ?_⟩
    obtain ⟨hwell, m, hinvalid⟩ | ⟨hbad, hundecoded⟩ :=
      Provider.refused_of_empty dest "invalid acknowledgement" hcode hvalue
    · exact ⟨fun _ => ⟨m, hrefused hinvalid⟩, fun hbad => absurd hbad hwell⟩
    · exact ⟨fun hwell => absurd hbad hwell, fun _ => hrefused hundecoded⟩

/-- An answer whose proof has one operation with this data. -/
def operationAnswer (value data : Bytes) : QueryAnswer :=
  ⟨0, "", "", [], value, some (ofMessages 1 [ofBytes 3 data]), 99⟩

theorem holdProofs_operation {data : Bytes} {proof : Message}
    (hdata : Schema.decode .commitmentProof data = some proof) :
    HoldProofs (ofMessages 1 [ofBytes 3 data]) [proof] := by
  refine .cons ?_ .nil
  rwa [bytes_ofBytes]

theorem decode_commitmentProof_cut : Schema.decode .commitmentProof [0xff] = none := rfl

theorem proofQueryHeight_hundred : Provider.proofQueryHeight 100 = .ok 99 := rfl

/-- A relayed acknowledgement, and an empty one that is refused. -/
theorem relayAcknowledgement_mixedTx :
    (∃ h msg fields, ∃ ev : AckEvidence,
      (relayAcknowledgement (transferEnd 0 "near") (transferEnd 1 "far-3") 100 7 "channel-1"
        "transfer" none).run.Yields h (.ok msg) ∧
      ev.packet = Packet.mixedPacket ∧ ev.proof.height = ⟨3, 100⟩ ∧
      msg.unpack .msgAcknowledgement = .ok fields ∧
      Acknowledges fields ev.packet ev.proof ev.signer) ∧
    ∃ h m, (relayAcknowledgement (transferEnd 0 "near") (transferEnd 1 "far-3") 100 7 "channel-1"
        "transfer" none).run.Yields h (.error (.invalidResponse m)) := by
  obtain ⟨_, hmade, hdecoded, hempty⟩ := relayAcknowledgement_faithful (transferEnd 0 "near")
    (transferEnd 1 "far-3") 100 7 "channel-1" "transfer" none
  let proof : PacketProof := ⟨(ofMessages 1 [ofMessage 1 []]).encode, ⟨3, 100⟩⟩
  let ev : AckEvidence := ⟨[Provider.mixedTx], Packet.mixedPacket, 99,
    operationAnswer [1] [0x0a, 0x00], proof, "cosmos1"⟩
  have hev : ev.Supports (transferEnd 0 "near") (transferEnd 1 "far-3") 100 7 "channel-1"
      "transfer" _ _ := {
    recorded := Provider.firstRecorded_mixedTx
    below := by decide
    accepted := rfl
    stored := by simp [ev, operationAnswer]
    vouched := ⟨_, [ofMessage 1 []], rfl, holdProofs_operation Provider.decode_existenceProof,
      by decide +kernel⟩
    history := rfl
    message := rfl }
  obtain ⟨fields, hfields, hacknowledges⟩ := hdecoded _ _ ev hev (by decide +kernel)
  refine ⟨⟨_, _, fields, ev, (hmade _ _).mpr ⟨ev, hev⟩, rfl, rfl, hfields, hacknowledges⟩, ?_⟩
  have hwell : ¬ (operationAnswer [] [0x0a, 0x00]).Malformed := by
    rintro ⟨ops, hops, op, hop, hnone⟩
    obtain rfl := Option.some.inj hops
    obtain ⟨_, hsome⟩ := (holdProofs_operation Provider.decode_existenceProof).exists_of_mem hop
    rw [hnone] at hsome
    cases hsome
  obtain ⟨_, m, hrefused⟩ | ⟨hbad, _⟩ := Provider.refused_of_empty (transferEnd 1 "far-3")
    "invalid acknowledgement" (a := operationAnswer [] [0x0a, 0x00]) rfl rfl
  · have hy := yields_relayAcknowledgement_refused (transferEnd 0 "near") none
      Provider.firstRecorded_mixedTx proofQueryHeight_hundred hrefused
    obtain ⟨m', hm'⟩ := ((hempty _ _ _ _ hy Provider.answer_mem_asked).2 rfl rfl).1 hwell
    exact ⟨_, m', hm' ▸ hy⟩
  · exact absurd hbad hwell

/-- The stored acknowledgement is empty, and what comes as its proof does not decode. -/
theorem relayAcknowledgement_malformed_empty : ∃ h a e,
    (relayAcknowledgement (transferEnd 0 "near") (transferEnd 1 "far-3") 100 7 "channel-1"
      "transfer" none).run.Yields h (.error e) ∧
    .answered (.call (transferEnd 1 "far-3")
      ((StoreKey.acknowledgement "transfer" "channel-1" 7).query 99)) (.ok a) ∈ h ∧
    a.code = 0 ∧ a.value = [] ∧ ∀ m, e ≠ .invalidResponse m := by
  have hbad : (operationAnswer [] [0xff]).Malformed :=
    ⟨_, rfl, ofBytes 3 [0xff], List.mem_singleton.mpr rfl,
      by rw [bytes_ofBytes, decode_commitmentProof_cut]⟩
  obtain ⟨hwell, _⟩ | ⟨_, hrefused⟩ := Provider.refused_of_empty (transferEnd 1 "far-3")
    "invalid acknowledgement" (a := operationAnswer [] [0xff]) rfl rfl
  · exact absurd hbad hwell
  · have hy := yields_relayAcknowledgement_refused (transferEnd 0 "near") none
      Provider.firstRecorded_mixedTx proofQueryHeight_hundred hrefused
    exact ⟨_, operationAnswer [] [0xff], _, hy, Provider.answer_mem_asked, rfl, rfl, nofun⟩

end Relaying

end PacketRelay
