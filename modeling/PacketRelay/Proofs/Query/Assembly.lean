import PacketRelay.Proofs.Query
import PacketRelay.Proofs.Schema.Fields
import PacketRelay.Proofs.Schema.Packing

/-!
# Proofs put together from answers

A node proves an entry by a list of operations, each of which holds one commitment proof.  They are
decoded one by one and written again as one proof.  A commitment proof without content still takes
its place in it, so the operations are counted and ordered in what is written as in the answer.
-/

namespace PacketRelay

open Program
open Schema (Message MessageType Slot Fills)
open Schema.Message

section Failing

variable {ε α β : Type} {x : Except ε α} {f : α → Except ε β}

theorem bind_eq_ok_iff {b : β} : x >>= f = .ok b ↔ ∃ a, x = .ok a ∧ f a = .ok b := by
  cases x <;> simp [Bind.bind, Except.bind]

theorem bind_eq_error_iff {e : ε} :
    x >>= f = .error e ↔ x = .error e ∨ ∃ a, x = .ok a ∧ f a = .error e := by
  cases x <;> simp [Bind.bind, Except.bind]

end Failing

theorem decodeAnswer_ok_iff {t : MessageType} {b : Bytes} {m : Message} :
    decodeAnswer t b = .ok m ↔ Schema.decode t b = some m := by
  unfold decodeAnswer
  cases Schema.decode t b <;> simp

theorem decodeAnswer_error_iff {t : MessageType} {b : Bytes} {e : RelayError} :
    decodeAnswer t b = .error e ↔ Schema.decode t b = none ∧ e = .malformedMessage := by
  unfold decodeAnswer
  cases Schema.decode t b <;> simp [eq_comm]

variable {α : Type} {t : MessageType} {f : α → Bytes}

theorem mapM_decodeAnswer_ok_iff {l : List α} {ms : List Message} :
    (l.mapM fun a => decodeAnswer t (f a)) = .ok ms ↔
      List.Forall₂ (fun a m => Schema.decode t (f a) = some m) l ms := by
  induction l generalizing ms with
  | nil => simp [Pure.pure, Except.pure, eq_comm]
  | cons a l ih =>
      simp only [List.mapM_cons, List.forall₂_cons_left_iff, bind_eq_ok_iff, decodeAnswer_ok_iff, ih]
      constructor
      · rintro ⟨m, hm, ms', hms', heq⟩
        exact ⟨m, ms', hm, hms', (Except.ok.inj heq).symm⟩
      · rintro ⟨m, ms', hm, hms', rfl⟩
        exact ⟨m, hm, ms', hms', rfl⟩

theorem mapM_decodeAnswer_error {l : List α} {e : RelayError}
    (h : (l.mapM fun a => decodeAnswer t (f a)) = .error e) :
    e = .malformedMessage ∧ ∃ a ∈ l, Schema.decode t (f a) = none := by
  induction l with
  | nil => cases h
  | cons a l ih =>
      simp only [List.mapM_cons, bind_eq_error_iff, decodeAnswer_error_iff] at h
      obtain ⟨hnone, rfl⟩ | ⟨m, _, hl | ⟨ms, _, hok⟩⟩ := h
      · exact ⟨rfl, a, List.mem_cons_self, hnone⟩
      · obtain ⟨rfl, b, hb, hnone⟩ := ih hl
        exact ⟨rfl, b, List.mem_cons_of_mem a hb, hnone⟩
      · cases hok

/-- The operations of a node's proof hold these commitment proofs. -/
def HoldProofs (ops : Message) (proofs : List Message) : Prop :=
  List.Forall₂ (fun op proof => Schema.decode .commitmentProof (bytes op 3) = some proof)
    (ops.messages 1) proofs

theorem HoldProofs.exists_of_mem {ops op : Message} {proofs : List Message}
    (h : HoldProofs ops proofs) (hop : op ∈ ops.messages 1) :
    ∃ proof, Schema.decode .commitmentProof (bytes op 3) = some proof := by
  obtain ⟨hlength, hget⟩ := List.forall₂_iff_get.mp h
  obtain ⟨i, rfl⟩ := List.get_of_mem hop
  exact ⟨_, hget i i.2 (hlength ▸ i.2)⟩

theorem exists_holdProofs_iff {ops : Message} :
    (∃ proofs, HoldProofs ops proofs) ↔
      ∀ op ∈ ops.messages 1, ∃ proof, Schema.decode .commitmentProof (bytes op 3) = some proof := by
  refine ⟨fun ⟨proofs, hhold⟩ op hop => hhold.exists_of_mem hop, fun hall => ?_⟩
  unfold HoldProofs
  generalize ops.messages 1 = l at hall ⊢
  induction l with
  | nil => exact ⟨[], .nil⟩
  | cons op l ih =>
      obtain ⟨proof, hproof⟩ := hall op List.mem_cons_self
      obtain ⟨proofs, hproofs⟩ := ih fun op' hop' => hall op' (List.mem_cons_of_mem op hop')
      exact ⟨proof :: proofs, .cons hproof hproofs⟩

/-- An operation of the answer's proof holds no commitment proof. -/
def QueryAnswer.Malformed (a : QueryAnswer) : Prop :=
  ∃ ops, a.proofOps = some ops ∧
    ∃ op ∈ ops.messages 1, Schema.decode .commitmentProof (bytes op 3) = none

namespace Provider

variable {p : Provider} {h : List Exchange} {height queryHeight : UInt64} {a : QueryAnswer}

theorem merkleProof_ok_iff {ops m : Message} :
    merkleProof ops = .ok m ↔ ∃ proofs, HoldProofs ops proofs ∧ m = ofMessages 1 proofs := by
  unfold merkleProof
  simp only [bind_eq_ok_iff, mapM_decodeAnswer_ok_iff, HoldProofs]
  exact exists_congr fun proofs => and_congr_right fun _ =>
    ⟨fun heq => (Except.ok.inj heq).symm, fun heq => by rw [heq]; rfl⟩

theorem merkleProof_error {ops : Message} {e : RelayError} (h : merkleProof ops = .error e) :
    e = .malformedMessage ∧
      ∃ op ∈ ops.messages 1, Schema.decode .commitmentProof (bytes op 3) = none := by
  obtain hl | ⟨proofs, _, hok⟩ := bind_eq_error_iff.mp h
  · exact mapM_decodeAnswer_error hl
  · cases hok

/-- The proof is made up of the commitment proofs in an answer, and holds at the height after that
of the answer. -/
def Vouches (p : Provider) (a : QueryAnswer) (proof : PacketProof) : Prop :=
  ∃ ops proofs, a.proofOps = some ops ∧ HoldProofs ops proofs ∧
    proof = ⟨(ofMessages 1 proofs).encode, ⟨p.revision, a.height + 1⟩⟩

theorem provenAnswer_ok_iff {a : QueryAnswer} {proof : PacketProof} :
    p.provenAnswer a = .ok ⟨a.value, proof.proof, proof.height⟩ ↔ p.Vouches a proof := by
  unfold provenAnswer Vouches
  cases a.proofOps with
  | none => simp
  | some ops =>
      simp only [bind_eq_ok_iff, merkleProof_ok_iff]
      constructor
      · rintro ⟨_, ⟨proofs, hhold, rfl⟩, heq⟩
        have hproof := Except.ok.inj heq
        injection hproof with _ hbytes hheight
        exact ⟨ops, proofs, rfl, hhold, by rw [hbytes, hheight]⟩
      · rintro ⟨_, proofs, heq, hhold, rfl⟩
        cases heq
        exact ⟨_, ⟨proofs, hhold, rfl⟩, rfl⟩

theorem proofQueryHeight_ok_iff :
    proofQueryHeight height = .ok queryHeight ↔
      height ≠ 1 ∧ height ≠ 2 ∧ queryHeight.toNat = height.toNat - 1 := by
  have hone : (1 : UInt64).toNat = 1 := rfl
  have htwo : (2 : UInt64).toNat = 2 := rfl
  have hzero : (0 : UInt64).toNat = 0 := rfl
  unfold proofQueryHeight
  simp only [UInt64.le_iff_toNat_le, ← UInt64.toNat_inj, ne_eq, hone, htwo, hzero]
  split
  · rw [Except.ok.injEq, ← UInt64.toNat_inj, hzero]
    omega
  · split
    · refine iff_of_false nofun ?_
      omega
    · have hsub : (height - 1).toNat = height.toNat - 1 :=
        UInt64.toNat_sub_of_le height 1 (UInt64.le_iff_toNat_le.mpr (by rw [hone]; omega))
      rw [Except.ok.injEq, ← UInt64.toNat_inj, hsub]
      omega

/-- The value that an answer proves. -/
def readProven (p : Provider) (a : QueryAnswer) : Except RelayError (Proven Bytes) :=
  (checkAnswer StorePath.ibcStore true a).bind p.provenAnswer

theorem readProven_ok_iff {proven : Proven Bytes} (hcode : a.code = 0) :
    p.readProven a = .ok proven ↔
      proven.value = a.value ∧ p.Vouches a ⟨proven.proof, proven.height⟩ := by
  constructor
  · intro hread
    obtain ⟨b, hchecked, hproven⟩ := bind_eq_ok_iff.mp hread
    obtain ⟨rfl, _⟩ := checkAnswer_ok_iff.mp hchecked
    have hvalue := value_of_provenAnswer hproven
    refine ⟨hvalue, provenAnswer_ok_iff.mp ?_⟩
    rw [hproven, ← hvalue]
  · rintro ⟨hvalue, hvouched⟩
    have hproven := provenAnswer_ok_iff.mpr hvouched
    rw [← hvalue] at hproven
    exact bind_eq_ok_iff.mpr ⟨a, checkAnswer_of_provenAnswer hcode hproven, hproven⟩

theorem yields_queryAbci_iff {path : String} {data : Bytes} {prove : Bool}
    {r : Except RelayError QueryAnswer} :
    (p.queryAbci path data height prove).run.Yields h r ↔
      (∃ a, h = [.answered (.call p (.abciQuery path data height prove)) (.ok a)] ∧
        r = checkAnswer path prove a) ∨
      ∃ e, h = [.answered (.call p (.abciQuery path data height prove)) (.error e),
        .answered (.record p .rpcError) ()] ∧ r = .error e := by
  refine ⟨yields_queryAbci, ?_⟩
  rintro (⟨a, rfl, rfl⟩ | ⟨e, rfl, rfl⟩)
  · exact Attempt.yields_request_bind_iff.mpr
      ⟨.ok a, [], rfl, Attempt.yields_ofExcept_iff.mpr ⟨rfl, rfl⟩⟩
  · refine Attempt.yields_request_bind_iff.mpr ⟨.error e, _, rfl, ?_⟩
    refine Attempt.yields_bind_iff.mpr (.inl ⟨e, ?_, rfl⟩)
    exact Attempt.yields_request_bind_iff.mpr ⟨(), [], rfl, Attempt.yields_throw_iff.mpr ⟨rfl, rfl⟩⟩

/-- What is read with a query is read from the node's one answer. -/
theorem yields_queryAbci_read_iff {β : Type} {path : String} {data : Bytes} {prove : Bool}
    (read : QueryAnswer → Except RelayError β) {r : Except RelayError β} :
    (p.queryAbci path data height prove >>= fun a => Attempt.ofExcept (read a)).run.Yields h r ↔
      (∃ a, h = [.answered (.call p (.abciQuery path data height prove)) (.ok a)] ∧
        r = (checkAnswer path prove a).bind read) ∨
      ∃ e, h = [.answered (.call p (.abciQuery path data height prove)) (.error e),
        .answered (.record p .rpcError) ()] ∧ r = .error e := by
  simp only [Attempt.yields_bind_iff, yields_queryAbci_iff, Attempt.yields_ofExcept_iff]
  constructor
  · rintro (⟨e, ⟨a, rfl, hchecked⟩ | ⟨e', rfl, heq⟩, rfl⟩ |
      ⟨h₁, b, h₂, rfl, ⟨a, rfl, hchecked⟩ | ⟨e, _, heq⟩, rfl, rfl⟩)
    · exact .inl ⟨a, rfl, by rw [← hchecked]; rfl⟩
    · cases heq
      exact .inr ⟨e, rfl, rfl⟩
    · exact .inl ⟨a, rfl, by rw [← hchecked]; rfl⟩
    · cases heq
  · rintro (⟨a, rfl, rfl⟩ | ⟨e, rfl, rfl⟩)
    · cases hchecked : checkAnswer path prove a with
      | error e => exact .inl ⟨e, .inl ⟨a, rfl, hchecked.symm⟩, rfl⟩
      | ok b => exact .inr ⟨_, b, [], rfl, .inl ⟨a, rfl, hchecked.symm⟩, rfl, rfl⟩
    · exact .inl ⟨e, .inr ⟨e, rfl, rfl⟩, rfl⟩

/-- A proof is read with one query, whose failure is counted. -/
theorem yields_queryProof_iff {key : Bytes} {r : Except RelayError (Proven Bytes)}
    (hheight : proofQueryHeight height = .ok queryHeight) :
    (p.queryProof height key).run.Yields h r ↔
      (∃ a, h = [.answered (.call p (.abciQuery StorePath.ibcStore key queryHeight true)) (.ok a)] ∧
        r = p.readProven a) ∨
      ∃ e, h = [.answered (.call p (.abciQuery StorePath.ibcStore key queryHeight true)) (.error e),
        .answered (.record p .rpcError) ()] ∧ r = .error e := by
  have hquery : p.queryProof height key =
      p.queryAbci StorePath.ibcStore key queryHeight true >>= fun a =>
        Attempt.ofExcept (p.provenAnswer a) := by
    rw [queryProof, hheight]
    rfl
  rw [hquery]
  exact yields_queryAbci_read_iff p.provenAnswer

end Provider

section Writing

theorem messages_ofMessages (field : Nat) (ms : List Message) :
    (ofMessages field ms).messages field = ms := by
  simp [messages, ofMessages, List.filterMap_map]

/-- An element is written even if it has no content. -/
theorem encode_ofMessages_eq_nil_iff {field : Nat} {ms : List Message} :
    (ofMessages field ms).encode = [] ↔ ms = [] := by
  constructor
  · intro hnil
    cases ms with
    | nil => rfl
    | cons m ms =>
        rw [ofMessages, List.map_cons, encode_cons, List.append_eq_nil_iff] at hnil
        exact absurd hnil.1 (Wire.writeEntry_ne_nil (Schema.Value.payload_ne_other _))
  · rintro rfl
    rfl

/-- Commitment proofs that were read can be written as one proof: they nest no deeper in it than the
reader follows. -/
theorem HoldProofs.conforms {ops : Message} {proofs : List Message} (hhold : HoldProofs ops proofs) :
    (ofMessages 1 proofs).Conforms Schema.nestingLimit .merkleProof := by
  have hproofs : ∀ proof ∈ proofs, proof.Conforms Schema.nestingLimit .commitmentProof := by
    intro proof hproof
    obtain ⟨hlength, hget⟩ := List.forall₂_iff_get.mp hhold
    obtain ⟨i, rfl⟩ := List.get_of_mem hproof
    have hi : i < (ops.messages 1).length := hlength.symm ▸ i.2
    exact Schema.conforms_of_decode (hget i hi i.2)
  have hfill : Fills (Message.Conforms Schema.nestingLimit) MessageType.merkleProof.slots
      (ofMessages 1 proofs ++ []) := .cons (Schema.holds_ofMessages rfl hproofs) .nil
  rw [List.append_nil] at hfill
  have hproof : (ofMessages 1 proofs).Is .merkleProof := ⟨Schema.nestingLimit + 1, hfill⟩
  exact hproof.conforms (by decide)

/-- The bytes hold the commitment proofs of the operations, each once and in their order.  Byte
strings have lengths of 64 bits. -/
structure Assembles (ops : Message) (proofs : List Message) (proof : Bytes) : Prop where
  held : HoldProofs ops proofs
  written : proof = (ofMessages 1 proofs).encode
  read : proof.length < 1 <<< 64 →
    ∃ merkle, Schema.decode .merkleProof proof = some merkle ∧ merkle.messages 1 = proofs
  empty : proof = [] ↔ ops.messages 1 = []

theorem HoldProofs.assembles {ops : Message} {proofs : List Message} (hhold : HoldProofs ops proofs) :
    Assembles ops proofs (ofMessages 1 proofs).encode where
  held := hhold
  written := rfl
  read hsize := ⟨_, Schema.decode_encode hhold.conforms hsize, messages_ofMessages 1 proofs⟩
  empty := by
    have hlength := List.Forall₂.length_eq hhold
    rw [encode_ofMessages_eq_nil_iff, ← List.length_eq_zero_iff, ← List.length_eq_zero_iff, hlength]

end Writing

namespace Provider

/-- A proof is put together from the answer to one query, for the key that was given and for the
height below the one that was given.  An answer that the node accepts gives a proof exactly if it
has operations and each of them decodes, and then the proof holds what they hold and goes with the
value of the answer. -/
theorem queryProof_assembles (p : Provider) (key : Bytes) (height : UInt64)
    (hheight : height = 0 ∨ 3 ≤ height) :
    ∃ queryHeight : UInt64, queryHeight.toNat = height.toNat - 1 ∧
      (∀ h r, (p.queryProof height key).run.Yields h r → ∃ answer g,
        h = .answered (.call p (.abciQuery "store/ibc/key" key queryHeight true)) answer :: g ∧
          g = match answer with
            | .ok _ => []
            | .error _ => [.answered (.record p .rpcError) ()]) ∧
      ∀ a : QueryAnswer, a.code = 0 → ∃ r,
        (∀ r', (p.queryProof height key).run.Yields
          [.answered (.call p (.abciQuery "store/ibc/key" key queryHeight true)) (.ok a)] r' ↔
            r' = r) ∧
        ((∃ proven, r = .ok proven) ↔ ∃ ops, a.proofOps = some ops ∧
          ∀ op ∈ ops.messages 1,
            ∃ proof, Schema.decode .commitmentProof (bytes op 3) = some proof) ∧
        ∀ proven, r = .ok proven → proven.value = a.value ∧
          ∃ ops proofs, a.proofOps = some ops ∧ Assembles ops proofs proven.proof := by
  obtain ⟨queryHeight, hquery⟩ : ∃ queryHeight, proofQueryHeight height = .ok queryHeight := by
    obtain rfl | hhigh := hheight
    · exact ⟨0, rfl⟩
    · exact ⟨_, (proofQueryHeight_of_le hhigh).1⟩
  refine ⟨queryHeight, (proofQueryHeight_ok_iff.mp hquery).2.2, ?_, ?_⟩
  · intro h r hy
    obtain ⟨a, rfl, _⟩ | ⟨e, rfl, _⟩ := (yields_queryProof_iff hquery).mp hy
    · exact ⟨.ok a, [], rfl, rfl⟩
    · exact ⟨.error e, _, rfl, rfl⟩
  · intro a hcode
    refine ⟨p.readProven a, fun r' => ?_, ?_, ?_⟩
    · refine (yields_queryProof_iff hquery).trans ⟨?_, fun hr => .inl ⟨a, rfl, hr⟩⟩
      rintro (⟨b, heq, rfl⟩ | ⟨e, heq, _⟩)
      · cases heq
        rfl
      · cases heq
    · constructor
      · rintro ⟨proven, hproven⟩
        obtain ⟨_, ops, proofs, hops, hhold, _⟩ := (readProven_ok_iff hcode).mp hproven
        exact ⟨ops, hops, exists_holdProofs_iff.mp ⟨proofs, hhold⟩⟩
      · rintro ⟨ops, hops, hall⟩
        obtain ⟨proofs, hhold⟩ := exists_holdProofs_iff.mpr hall
        exact ⟨⟨a.value, _, _⟩, (readProven_ok_iff hcode).mpr ⟨rfl, ops, proofs, hops, hhold, rfl⟩⟩
    · intro proven hproven
      obtain ⟨hvalue, ops, proofs, hops, hhold, heq⟩ := (readProven_ok_iff hcode).mp hproven
      have hbytes : proven.proof = (ofMessages 1 proofs).encode := congrArg PacketProof.proof heq
      exact ⟨hvalue, ops, proofs, hops, hbytes ▸ hhold.assembles⟩

def provingEnd : Provider :=
  ⟨0, ⟨"near-1", "key", "cosmos", 1, ⟨0, "stake"⟩, 0, 0, .direct, .ofSeconds 10, .ofSeconds 1,
    ⟨1, .ofMillis 10, true⟩⟩, []⟩

/-- The operations of an answer: an existence proof, and one that has no data. -/
def twoOperations : Message := ofMessages 1 [ofBytes 3 [0x0a, 0x00], []]

theorem decode_existenceProof :
    Schema.decode .commitmentProof [0x0a, 0x00] = some (ofMessage 1 []) := rfl

theorem decode_empty : Schema.decode .commitmentProof [] = some [] := rfl

theorem holdProofs_twoOperations {proofs : List Message} :
    HoldProofs twoOperations proofs ↔ proofs = [ofMessage 1 [], []] := by
  have hops : twoOperations.messages 1 = [ofBytes 3 [0x0a, 0x00], []] := messages_ofMessages 1 _
  have hfirst : Schema.decode .commitmentProof (bytes (ofBytes 3 [0x0a, 0x00]) 3) =
      some (ofMessage 1 []) := by rw [bytes_ofBytes, decode_existenceProof]
  have hsecond : Schema.decode .commitmentProof (bytes [] 3) = some [] := decode_empty
  simp only [HoldProofs, hops, List.forall₂_cons_left_iff, hfirst, hsecond, Option.some.injEq,
    List.forall₂_nil_left_iff]
  constructor
  · rintro ⟨_, _, rfl, ⟨_, _, rfl, rfl, rfl⟩, rfl⟩
    rfl
  · rintro rfl
    exact ⟨_, _, rfl, ⟨_, _, rfl, rfl, rfl⟩, rfl⟩

/-- The operation without data is in the proof, as its second commitment proof. -/
theorem queryProof_assembles_two_operations : ∃ queryHeight proven merkle,
    (provingEnd.queryProof 100 [7]).run.Yields
      [.answered (.call provingEnd (.abciQuery "store/ibc/key" [7] queryHeight true))
        (.ok ⟨0, "", "", [], [1], some twoOperations, 99⟩)] (.ok proven) ∧
    queryHeight.toNat = 99 ∧ proven.value = [1] ∧
    Schema.decode .merkleProof proven.proof = some merkle ∧
    merkle.messages 1 = [ofMessage 1 [], []] := by
  obtain ⟨queryHeight, hbelow, _, hanswers⟩ :=
    queryProof_assembles provingEnd [7] 100 (.inr (by decide))
  obtain ⟨r, hruns, hok, hproof⟩ :=
    hanswers ⟨0, "", "", [], [1], some twoOperations, 99⟩ rfl
  obtain ⟨proven, rfl⟩ := hok.mpr
    ⟨_, rfl, exists_holdProofs_iff.mp ⟨_, holdProofs_twoOperations.mpr rfl⟩⟩
  obtain ⟨hvalue, ops, proofs, hops, hheld, hwritten, hread, _⟩ := hproof proven rfl
  cases hops
  obtain rfl := holdProofs_twoOperations.mp hheld
  obtain ⟨merkle, hdecoded, hproofs⟩ := hread (by rw [hwritten]; decide +kernel)
  exact ⟨queryHeight, proven, merkle, (hruns _).mpr rfl, hbelow, hvalue, hdecoded, hproofs⟩

end Provider

end PacketRelay
