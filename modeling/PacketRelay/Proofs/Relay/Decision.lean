import PacketRelay.Proofs.Packet.Expiry
import PacketRelay.Proofs.Query

/-!
# The message for a packet

A packet is judged once it was found on the source and the destination has named the time of its
block.  Nothing is asked for one that breaks the protocol.  A deliverable packet is proven by the
source alone and an expired one by the destination alone, and the other chain signs.
-/

namespace PacketRelay

open Program
open Schema.Message (ofNumber ofText ofBytes ofMessage)

/-- The requests by which a judged packet is proven and its message is signed. -/
def Request.Settles : Request → Prop
  | .rest | .address _ | .record .. | .call _ (.abciQuery ..) => True
  | _ => False

variable {dest source : Provider} {r : RelayRequest} {packet : Packet} {s : Signal}
  {h : List Exchange} {m : RelayMessage}

def timeoutMessage (source : Provider) (packet : Packet) (proof : PacketProof) :
    Expiry → Attempt Any
  | .channelClosed => source.timeoutOnClose packet proof
  | _ => source.timeoutPacket packet proof

/-- What is left to do for a judged packet, by the rule under which it expired. -/
def settlePacket (dest source : Provider) (r : RelayRequest) (packet : Packet) (s : Signal) :
    Option Expiry → Attempt RelayMessage
  | none => do
    let proof ← Attempt.guard s (source.packetCommitment packet r.sourceHeight)
    return .receive (← dest.recvPacket packet proof) proof
  | some reason => do
    let proof ← Attempt.guard s (dest.unreceivedProof packet r.destHeight r.order)
    return .timeout (← timeoutMessage source packet proof reason) proof reason

theorem relayPacket_eq : relayPacket dest source r s = (do
    let packet ← Attempt.guard s (source.sentPacket r.channel r.port r.sequence)
    let t ← Attempt.guard s (dest.blockTime r.destHeight)
    match packet.fault? with
    | some e => throw (.packet e)
    | none =>
      settlePacket dest source r packet s
        (packet.expiryAt dest.revision r.destHeight t.judgedNanos r.channelState)) := by
  unfold relayPacket
  refine congrArg (_ >>= ·) (funext fun packet => congrArg (_ >>= ·) (funext fun t => ?_))
  simp only [Packet.expiryOf_validate, Provider.revision]
  cases packet.fault? with
  | some e => rfl
  | none =>
      dsimp only
      cases packet.expiryAt (ChainId.revision dest.chainId) r.destHeight t.judgedNanos
          r.channelState with
      | none => rfl
      | some reason => cases reason <;> rfl

theorem asks_settlePacket (reason : Option Expiry) :
    Asks Request.Settles (settlePacket dest source r packet s reason).run := by
  cases reason with
  | none =>
      refine Attempt.asks_bind (Attempt.asks_guard trivial ?_) fun proof => ?_
      · exact Provider.asks_proveMember (fun _ => trivial) trivial
      · exact Attempt.asks_bind (Provider.asks_signedBy trivial) fun _ => Attempt.asks_pure _
  | some reason =>
      refine Attempt.asks_bind (Attempt.asks_guard trivial ?_) fun proof => ?_
      · cases hkey : r.order <;> exact Provider.asks_proveEntry (fun _ => trivial) trivial
      · refine Attempt.asks_bind ?_ fun _ => Attempt.asks_pure _
        cases reason <;> exact Provider.asks_signedBy trivial

/-- The entry that shows that a packet was not received, by the order of its channel. -/
def Packet.evidenceKey (p : Packet) : ChannelOrder → StoreKey
  | .unordered => .receipt p.destPort p.destChannel p.sequence
  | .ordered => .nextSequenceRecv p.destPort p.destChannel

theorem unreceivedProof_eq (packet : Packet) (height : UInt64) (order : ChannelOrder) :
    dest.unreceivedProof packet height order =
      dest.proveEntry height (packet.evidenceKey order) := by
  cases order <;> rfl

/-- The source proves at its height that it committed to the packet, and the destination signs the
message that carries packet and proof. -/
def Delivers (dest source : Provider) (r : RelayRequest) (packet : Packet) (h : List Exchange)
    (m : RelayMessage) : Prop :=
  ∃ a proof g signer,
    source.Proves r.sourceHeight
      (.commitment packet.sourcePort packet.sourceChannel packet.sequence) a proof g ∧
    a.value ≠ [] ∧
    h = .answered .rest () :: g ++ [.answered (.address dest) (.ok signer)] ∧
    m = .receive (Any.pack .msgRecvPacket (ofMessage 1 packet.toMessage ++ ofBytes 2 proof.proof
      ++ ofMessage 3 proof.height.toMessage ++ ofText 4 signer)) proof

/-- The destination gives its evidence at its height, and the source signs the message that carries
packet and proof. -/
def TimesOut (dest source : Provider) (r : RelayRequest) (packet : Packet) (reason : Expiry)
    (h : List Exchange) (m : RelayMessage) : Prop :=
  ∃ a proof g signer,
    dest.Proves r.destHeight (packet.evidenceKey r.order) a proof g ∧
    h = .answered .rest () :: g ++ [.answered (.address source) (.ok signer)] ∧
    m = .timeout
      (if reason = .channelClosed then
        Any.pack .msgTimeoutOnClose (ofMessage 1 packet.toMessage ++ ofBytes 2 proof.proof
          ++ ofMessage 4 proof.height.toMessage ++ ofNumber 5 packet.sequence ++ ofText 6 signer)
      else
        Any.pack .msgTimeout (ofMessage 1 packet.toMessage ++ ofBytes 2 proof.proof
          ++ ofMessage 3 proof.height.toMessage ++ ofNumber 4 packet.sequence ++ ofText 5 signer))
      proof reason

/-- The message that belongs to a packet if its destination stands at this time. -/
def Decides (dest source : Provider) (r : RelayRequest) (packet : Packet) (nanos : Int)
    (h : List Exchange) (m : RelayMessage) : Prop :=
  match packet.expiryAt dest.revision r.destHeight nanos r.channelState with
  | none => Delivers dest source r packet h m
  | some reason => TimesOut dest source r packet reason h m

theorem Decides.reason {nanos : Int} (hd : Decides dest source r packet nanos h m) :
    m.reason? = packet.expiryAt dest.revision r.destHeight nanos r.channelState := by
  unfold Decides at hd
  split at hd
  · next hexpiry =>
    obtain ⟨_, _, _, _, _, _, _, rfl⟩ := hd
    exact hexpiry.symm
  · next reason hexpiry =>
    obtain ⟨_, _, _, _, _, _, rfl⟩ := hd
    exact hexpiry.symm

theorem Decides.iff_not_misjudged {t : BlockTime}
    (hd : Decides dest source r packet t.judgedNanos h m) :
    Decides dest source r packet t.unixNanos h m ↔
      ¬ packet.Misjudged dest.revision r.destHeight t := by
  rw [← packet.expiryAt_judgedNanos_eq_iff dest.revision r.destHeight t r.channelState]
  constructor
  · intro hd'
    exact hd.reason.symm.trans hd'.reason
  · intro heq
    unfold Decides at hd ⊢
    rwa [← heq]

theorem delivers_of_settle (hy : (settlePacket dest source r packet s none).run.Yields h (.ok m)) :
    Delivers dest source r packet h m := by
  obtain ⟨h₁, proof, h₂, rfl, hguard, hy₁⟩ := Attempt.yields_bind_ok_iff.mp hy
  obtain ⟨g, rfl, hproof⟩ := Attempt.yields_guard_ok hguard
  obtain ⟨a, hproves, hvalue⟩ := Provider.yields_proveMember hproof
  obtain ⟨h₂, msg, h₃, rfl, hsigned, hy₂⟩ := Attempt.yields_bind_ok_iff.mp hy₁
  obtain ⟨signer, rfl, rfl⟩ := Provider.yields_signedBy_iff.mp hsigned
  obtain ⟨rfl, rfl⟩ := Attempt.yields_pure_ok_iff.mp hy₂
  exact ⟨a, proof, g, signer, hproves, hvalue, by simp, rfl⟩

theorem timesOut_of_settle {reason : Expiry}
    (hy : (settlePacket dest source r packet s (some reason)).run.Yields h (.ok m)) :
    TimesOut dest source r packet reason h m := by
  obtain ⟨h₁, proof, h₂, rfl, hguard, hy₁⟩ := Attempt.yields_bind_ok_iff.mp hy
  obtain ⟨g, rfl, hproof⟩ := Attempt.yields_guard_ok hguard
  rw [unreceivedProof_eq] at hproof
  obtain ⟨a, hproves⟩ := Provider.yields_proveEntry hproof
  obtain ⟨h₂, msg, h₃, rfl, hsigned, hy₂⟩ := Attempt.yields_bind_ok_iff.mp hy₁
  obtain ⟨rfl, rfl⟩ := Attempt.yields_pure_ok_iff.mp hy₂
  cases reason <;> obtain ⟨signer, rfl, rfl⟩ := Provider.yields_signedBy_iff.mp hsigned
  all_goals exact ⟨a, proof, g, signer, hproves, by simp, rfl⟩

theorem decides_of_settle {nanos : Int}
    (hy : (settlePacket dest source r packet s
      (packet.expiryAt dest.revision r.destHeight nanos r.channelState)).run.Yields h (.ok m)) :
    Decides dest source r packet nanos h m := by
  unfold Decides
  split
  · next hexpiry =>
    rw [hexpiry] at hy
    exact delivers_of_settle hy
  · next reason hexpiry =>
    rw [hexpiry] at hy
    exact timesOut_of_settle hy

/-- How a run goes until a packet is judged. -/
def judging (dest source : Provider) (r : RelayRequest) (txs : List TxResult) (t : BlockTime) :
    List Exchange :=
  [.answered .rest (),
    .answered (.call source
      (.txSearch (Provider.packetSearch "send_packet" "src" r.channel r.port r.sequence))) (.ok txs),
    .answered .rest (), .answered (.call dest (.blockTime r.destHeight)) (.ok t)]

/-- The packet that the source's search found and the time of the destination's block. -/
structure Judges (dest source : Provider) (r : RelayRequest) (h : List Exchange)
    (packet : Packet) (t : BlockTime) : Prop where
  found : ∃ txs, .answered (.call source
      (.txSearch (Provider.packetSearch "send_packet" "src" r.channel r.port r.sequence)))
      (.ok txs) ∈ h ∧
    Packet.findSent txs r.channel r.port r.sequence = some packet
  read : .answered (.call dest (.blockTime r.destHeight)) (.ok t) ∈ h

theorem Judges.unique {txs : List TxResult} {t t' : BlockTime} {packet' : Packet}
    (hj : Judges dest source r (judging dest source r txs t ++ h) packet' t')
    (hh : ∀ x ∈ h, x.request.Settles)
    (hfound : Packet.findSent txs r.channel r.port r.sequence = some packet) :
    packet' = packet ∧ t' = t := by
  obtain ⟨⟨txs', hsearch, hfound'⟩, hread⟩ := hj
  constructor
  · rcases List.mem_append.mp hsearch with hfirst | hlater
    · have htxs : txs' = txs := by
        simpa [judging] using hfirst
      rw [htxs, hfound] at hfound'
      exact (Option.some.inj hfound').symm
    · exact (hh _ hlater).elim
  · rcases List.mem_append.mp hread with hfirst | hlater
    · simpa [judging] using hfirst
    · exact (hh _ hlater).elim

/-- A run reads no block time, or it judges the packet and settles it. -/
theorem relayPacket_run {res : Except RelayError RelayMessage}
    (hy : (relayPacket dest source r s).run.Yields h res) :
    (∃ e, res = .error e ∧
      ∀ t, .answered (.call dest (.blockTime r.destHeight)) (.ok t) ∉ h) ∨
    ∃ txs packet t g, h = judging dest source r txs t ++ g ∧
      Packet.findSent txs r.channel r.port r.sequence = some packet ∧
      ((∃ e, packet.fault? = some e ∧ g = [] ∧ res = .error (.packet e)) ∨
        packet.fault? = none ∧ (settlePacket dest source r packet s
          (packet.expiryAt dest.revision r.destHeight t.judgedNanos r.channelState)).run.Yields g res) := by
  rw [relayPacket_eq] at hy
  rcases Attempt.yields_bind_iff.mp hy with ⟨e, hsearch, rfl⟩ | ⟨h₁, packet, h₂, rfl, hsearch, hy₁⟩
  · refine .inl ⟨e, rfl, ?_⟩
    intro t hmem
    have hasks : Asks (fun q => ∀ p n, q ≠ .call p (.blockTime n))
        (Attempt.guard s (source.sentPacket r.channel r.port r.sequence)).run := by
      refine Attempt.asks_guard (by simp) (Provider.asks_searchPacket ?_ (by simp))
      simp
    exact hsearch.asks hasks _ hmem _ _ rfl
  obtain ⟨g₁, rfl, hfind⟩ := Attempt.yields_guard_ok hsearch
  obtain ⟨txs, rfl, hfound⟩ := Provider.yields_searchPacket_ok_iff.mp hfind
  rcases Attempt.yields_bind_iff.mp hy₁ with ⟨e, htime, rfl⟩ | ⟨h₂, t, h₃, rfl, htime, hy₂⟩
  · refine .inl ⟨e, rfl, ?_⟩
    intro t hmem
    have hlater : .answered (.call dest (.blockTime r.destHeight)) (.ok t) ∈ h₂ := by
      simpa using hmem
    exact Provider.blockTime_not_mem_of_error (Attempt.yields_guard htime) _ _ _ hlater
  obtain ⟨g₂, rfl, hread⟩ := Attempt.yields_guard_ok htime
  rcases Provider.yields_blockTime hread with ⟨t', ht, rfl⟩ | ⟨e, he, _⟩
  · obtain rfl := Except.ok.inj ht
    refine .inr ⟨txs, packet, t, h₃, rfl, hfound, ?_⟩
    cases hfault : packet.fault? with
    | some e =>
        rw [hfault] at hy₂
        obtain ⟨rfl, rfl⟩ := Attempt.yields_throw_iff.mp hy₂
        exact .inl ⟨e, rfl, rfl, rfl⟩
    | none =>
        rw [hfault] at hy₂
        exact .inr ⟨rfl, hy₂⟩
  · cases he

theorem Delivers.yields (hd : Delivers dest source r packet h m) :
    (settlePacket dest source r packet s none).run.Yields h (.ok m) := by
  obtain ⟨a, proof, g, signer, hproves, hvalue, rfl, rfl⟩ := hd
  have hproof : (Attempt.guard s (source.packetCommitment packet r.sourceHeight)).run.Yields
      (.answered .rest () :: g) (.ok proof) :=
    Attempt.yields_guard_of (hproves.yields_proveMember hvalue) hproves.isAnswer
  have hsigned : (dest.recvPacket packet proof).run.Yields
      [.answered (.address dest) (.ok signer)] (.ok _) :=
    Provider.yields_signedBy_iff.mpr ⟨signer, rfl, rfl⟩
  refine Attempt.yields_bind_ok_iff.mpr ⟨_, proof, _, rfl, hproof, ?_⟩
  refine Attempt.yields_bind_ok_iff.mpr ⟨_, _, [], rfl, hsigned, ?_⟩
  exact Attempt.yields_pure_iff.mpr ⟨rfl, rfl⟩

theorem TimesOut.yields {reason : Expiry} (ht : TimesOut dest source r packet reason h m) :
    (settlePacket dest source r packet s (some reason)).run.Yields h (.ok m) := by
  obtain ⟨a, proof, g, signer, hproves, rfl, rfl⟩ := ht
  have hproof : (Attempt.guard s (dest.unreceivedProof packet r.destHeight r.order)).run.Yields
      (.answered .rest () :: g) (.ok proof) := by
    rw [unreceivedProof_eq]
    exact Attempt.yields_guard_of hproves.yields_proveEntry hproves.isAnswer
  refine Attempt.yields_bind_ok_iff.mpr ⟨_, proof, _, rfl, hproof, ?_⟩
  refine Attempt.yields_bind_ok_iff.mpr
    ⟨_, _, [], (List.append_nil _).symm, ?_, Attempt.yields_pure_iff.mpr ⟨rfl, rfl⟩⟩
  cases reason <;> exact Provider.yields_signedBy_iff.mpr ⟨signer, rfl, rfl⟩

/-- Once its packet is found and the time is read, a run goes on as the packet's judgement says. -/
theorem yields_relayPacket_of_found {txs : List TxResult} {t : BlockTime}
    {res : Except RelayError RelayMessage}
    (hfound : Packet.findSent txs r.channel r.port r.sequence = some packet)
    (hrest : (match packet.fault? with
      | some e => throw (.packet e)
      | none => settlePacket dest source r packet s
          (packet.expiryAt dest.revision r.destHeight t.judgedNanos r.channelState)
        : Attempt RelayMessage).run.Yields h res) :
    (relayPacket dest source r s).run.Yields (judging dest source r txs t ++ h) res := by
  have hsearch : (Attempt.guard s (source.sentPacket r.channel r.port r.sequence)).run.Yields
      ((judging dest source r txs t).take 2) (.ok packet) :=
    Attempt.yields_guard_of (Provider.yields_searchPacket_ok_iff.mpr ⟨txs, rfl, hfound⟩)
      (by simp [Exchange.IsAnswer])
  have htime : (Attempt.guard s (dest.blockTime r.destHeight)).run.Yields
      ((judging dest source r txs t).drop 2) (.ok t) :=
    Attempt.yields_guard_of (dest.yields_blockTime_ok r.destHeight t) (by simp [Exchange.IsAnswer])
  rw [relayPacket_eq]
  refine Attempt.yields_bind_iff.mpr
    (.inr ⟨_, packet, (judging dest source r txs t).drop 2 ++ h, rfl, hsearch, ?_⟩)
  exact Attempt.yields_bind_iff.mpr (.inr ⟨_, t, h, rfl, htime, hrest⟩)

/-- Every message that fits the judged time can be made. -/
theorem Decides.yields {txs : List TxResult} {t : BlockTime}
    (hfound : Packet.findSent txs r.channel r.port r.sequence = some packet)
    (hfault : packet.fault? = none) (hd : Decides dest source r packet t.judgedNanos h m) :
    (relayPacket dest source r s).run.Yields (judging dest source r txs t ++ h) (.ok m) := by
  refine yields_relayPacket_of_found hfound ?_
  rw [hfault]
  unfold Decides at hd
  split at hd
  · next hexpiry =>
    dsimp only
    rw [hexpiry]
    exact hd.yields
  · next reason hexpiry =>
    dsimp only
    rw [hexpiry]
    exact hd.yields

/-- The message for a packet is decided by the packet that its source found and by the time of the
destination's block, and every run that makes a message has both.  The decision is the one that the
time calls for unless the time is misjudged. -/
theorem relayPacket_decides {res : Except RelayError RelayMessage}
    (hy : (relayPacket dest source r s).run.Yields h res) :
    (∀ m, res = .ok m → ∃ packet t, Judges dest source r h packet t) ∧
    ∀ packet t, Judges dest source r h packet t → ∃ txs g, h = judging dest source r txs t ++ g ∧
      (∀ e, packet.fault? = some e → g = [] ∧ res = .error (.packet e)) ∧
      (packet.fault? = none → ∀ m, res = .ok m →
        Decides dest source r packet t.judgedNanos g m ∧
          (Decides dest source r packet t.unixNanos g m ↔
            ¬ packet.Misjudged dest.revision r.destHeight t)) := by
  rcases relayPacket_run hy with ⟨e, rfl, hunread⟩ | ⟨txs, packet, t, g, rfl, hfound, hsettle⟩
  · constructor
    · rintro m ⟨⟩
    · intro packet t hj
      exact absurd hj.read (hunread t)
  have hg : ∀ x ∈ g, x.request.Settles := by
    rcases hsettle with ⟨e, _, rfl, _⟩ | ⟨_, hy'⟩
    · simp
    · exact hy'.asks (asks_settlePacket _)
  constructor
  · intro m _
    exact ⟨packet, t, ⟨txs, by simp [judging], hfound⟩, by simp [judging]⟩
  intro packet' t' hj
  obtain ⟨rfl, rfl⟩ := hj.unique hg hfound
  refine ⟨txs, g, rfl, ?_, ?_⟩
  · intro e he
    rcases hsettle with ⟨e', he', rfl, rfl⟩ | ⟨hnone, _⟩
    · rw [he] at he'
      cases he'
      exact ⟨rfl, rfl⟩
    · rw [he] at hnone
      cases hnone
  · intro hnone m hm
    rcases hsettle with ⟨e, he, _, _⟩ | ⟨_, hy'⟩
    · rw [hnone] at he
      cases he
    · subst hm
      have hdecides := decides_of_settle hy'
      exact ⟨hdecides, hdecides.iff_not_misjudged⟩

/-- One end of a channel for transfers. -/
def transferEnd (id : Nat) (chain : String) : Provider :=
  ⟨id, ⟨chain, "key", "cosmos", 1, ⟨0, "stake"⟩, 0, 0, .direct, .ofSeconds 10, .ofSeconds 1,
    ⟨1, .ofMillis 10, true⟩⟩, []⟩

def transferRequest : RelayRequest := ⟨50, 100, 5, "channel-0", "transfer", .unordered, .opened⟩

/-- A transfer that may be received until the end of 2023. -/
def transferTx : TxResult :=
  ⟨"", 10, 0, "", "", [], 0, 0, [⟨"send_packet",
    [("packet_sequence", "5"), ("packet_src_port", "transfer"), ("packet_src_channel", "channel-0"),
      ("packet_dst_port", "transfer"), ("packet_dst_channel", "channel-7"),
      ("packet_data_hex", "7b7d"), ("packet_timeout_timestamp", "1700000000000000000")]⟩]⟩

def transferPacket : Packet :=
  ⟨10, 5, "transfer", "channel-0", "transfer", "channel-7", [0x7b, 0x7d], .zero,
    1700000000000000000, []⟩

theorem findSent_transferTx :
    Packet.findSent [transferTx] transferRequest.channel transferRequest.port
      transferRequest.sequence = some transferPacket := by
  decide +kernel

/-- The destination's block lies in the year 1336, and the transfer is timed out. -/
theorem relayPacket_decides_far_past : ∃ g m,
    (relayPacket (transferEnd 0 "near") (transferEnd 1 "far") transferRequest none).run.Yields
      (judging (transferEnd 0 "near") (transferEnd 1 "far") transferRequest [transferTx]
        ⟨-20000000000, 0⟩ ++ g) (.ok m) ∧
    m.reason? = some .timestamp ∧
    ¬ Decides (transferEnd 0 "near") (transferEnd 1 "far") transferRequest transferPacket
      (BlockTime.unixNanos ⟨-20000000000, 0⟩) g m := by
  let near := transferEnd 0 "near"
  let far := transferEnd 1 "far"
  let t : BlockTime := ⟨-20000000000, 0⟩
  have hexpiry : transferPacket.expiryAt near.revision transferRequest.destHeight t.judgedNanos
      transferRequest.channelState = some .timestamp := by
    decide +kernel
  have hmisjudged : transferPacket.Misjudged near.revision transferRequest.destHeight t :=
    ⟨.inl rfl, by decide, by decide⟩
  obtain ⟨g, m, htimes⟩ : ∃ g m,
      TimesOut near far transferRequest transferPacket .timestamp g m :=
    ⟨_, _, ⟨0, "", "", [], [], some [], 99⟩, ⟨[], ⟨near.revision, 100⟩⟩, _, "",
      ⟨99, rfl, rfl, rfl, rfl⟩, rfl, rfl⟩
  have hdecides : Decides near far transferRequest transferPacket t.judgedNanos g m := by
    unfold Decides
    rw [hexpiry]
    exact htimes
  have hy := hdecides.yields (s := none) findSent_transferTx rfl
  obtain ⟨txs, g', hg, _, hmade⟩ := (relayPacket_decides hy).2 transferPacket t
    ⟨⟨[transferTx], by simp [judging], findSent_transferTx⟩, by simp [judging]⟩
  have hgg' : g' = g := by
    simp [judging] at hg
    exact hg.2.symm
  subst hgg'
  obtain ⟨_, hiff⟩ := hmade rfl m rfl
  exact ⟨g', m, hy, hdecides.reason.trans hexpiry, fun hd => hiff.mp hd hmisjudged⟩

end PacketRelay
