import PacketRelay.Proofs.Query.Assembly
import PacketRelay.Proofs.Store

/-!
# Proofs for interchain queries

Two rules look at the path of an interchain query: by its last segment a proof is asked for, and by
all of its segments the proof is insisted on.  On paths that name a store and read a key of it they
do both.  Other paths that end in a key are answered with the operations that the node sent, if it
sent any.
-/

namespace PacketRelay.Provider

open Program

variable {p : Provider} {h : List Exchange} {path : String} {request : Bytes} {height : UInt64}

/-- What an interchain query makes of the node's answer. -/
def readInterchain (path : String) (a : QueryAnswer) : Except RelayError QueryProof :=
  (checkAnswer path (StorePath.asksForProof path) a).bind fun b =>
    .ok ⟨b.value, b.proofOps, Schema.signed b.height⟩

theorem readInterchain_ok_iff {a : QueryAnswer} {proof : QueryProof} :
    readInterchain path a = .ok proof ↔
      a.code = 0 ∧ (StorePath.ReadsStore path → a.proofOps ≠ none) ∧
        proof = ⟨a.value, a.proofOps, Schema.signed a.height⟩ := by
  refine bind_eq_ok_iff.trans ⟨?_, ?_⟩
  · rintro ⟨_, hchecked, hread⟩
    obtain ⟨rfl, hcode, hproof⟩ := checkAnswer_ok_iff.mp hchecked
    refine ⟨hcode, fun hreads => ?_, (Except.ok.inj hread).symm⟩
    exact hproof hreads.asksForProof (StorePath.insistsOnProof_iff.mpr hreads)
  · rintro ⟨hcode, hproof, rfl⟩
    refine ⟨a, checkAnswer_ok_iff.mpr ⟨rfl, hcode, fun _ hinsists => ?_⟩, rfl⟩
    exact hproof (StorePath.insistsOnProof_iff.mp hinsists)

/-- The history of an interchain query that the node answered. -/
def interrogated (p : Provider) (path : String) (request : Bytes) (height : UInt64)
    (a : QueryAnswer) : List Exchange :=
  [.answered (.call p (.abciQuery path request height (StorePath.asksForProof path))) (.ok a)]

theorem yields_interchainQuery_iff {r : Except RelayError QueryProof} :
    (p.interchainQuery path request height).run.Yields h r ↔
      (∃ a, h = p.interrogated path request height a ∧ r = readInterchain path a) ∨
      ∃ e, h = [.answered
        (.call p (.abciQuery path request height (StorePath.asksForProof path))) (.error e),
        .answered (.record p .rpcError) ()] ∧ r = .error e := by
  have hquery : p.interchainQuery path request height =
      p.queryAbci path request height (StorePath.asksForProof path) >>= fun a =>
        Attempt.ofExcept (.ok ⟨a.value, a.proofOps, Schema.signed a.height⟩) := rfl
  rw [hquery]
  exact yields_queryAbci_read_iff _

theorem yields_interrogated_iff {a : QueryAnswer} {r : Except RelayError QueryProof} :
    (p.interchainQuery path request height).run.Yields (p.interrogated path request height a) r ↔
      r = readInterchain path a := by
  rw [yields_interchainQuery_iff]
  constructor
  · rintro (⟨b, heq, rfl⟩ | ⟨e, heq, _⟩)
    · cases heq
      rfl
    · cases heq
  · rintro rfl
    exact .inl ⟨a, rfl, rfl⟩

theorem yields_interchainQuery_ok_iff {proof : QueryProof} :
    (p.interchainQuery path request height).run.Yields h (.ok proof) ↔
      ∃ a, h = p.interrogated path request height a ∧ a.code = 0 ∧
        (StorePath.ReadsStore path → a.proofOps ≠ none) ∧
        proof = ⟨a.value, a.proofOps, Schema.signed a.height⟩ := by
  rw [yields_interchainQuery_iff]
  simp only [eq_comm (a := Except.ok proof), readInterchain_ok_iff]
  refine or_iff_left ?_
  rintro ⟨e, _, heq⟩
  cases heq

/-- A proof is asked for where the last segment of the path is a key.  It is insisted on where the
path names a store and reads a key of it: there every result has the operations of the answer, and
an answer without them is an error.  On any other path what the node accepts is the result, with
operations or without. -/
theorem interchainQuery_insists (p : Provider) (path : String) (request : Bytes)
    (height : UInt64) :
    (StorePath.asksForProof path = true ↔
      path = "key" ∨ ∃ before : String, path = before ++ "/key") ∧
    (StorePath.insistsOnProof path = StorePath.asksForProof path ↔
      (StorePath.asksForProof path = true → StorePath.ReadsStore path)) ∧
    (∀ h proof, (p.interchainQuery path request height).run.Yields h (.ok proof) ↔
      ∃ a, h = p.interrogated path request height a ∧ a.code = 0 ∧
        (StorePath.ReadsStore path → a.proofOps ≠ none) ∧
        proof = ⟨a.value, a.proofOps, Schema.signed a.height⟩) ∧
    (StorePath.ReadsStore path → StorePath.asksForProof path = true ∧
      (∀ h proof, (p.interchainQuery path request height).run.Yields h (.ok proof) →
        ∃ ops, proof.proofOps = some ops) ∧
      ∀ a : QueryAnswer, a.proofOps = none → ∃ e, ∀ r,
        (p.interchainQuery path request height).run.Yields
          (p.interrogated path request height a) r ↔ r = .error e) := by
  refine ⟨StorePath.asksForProof_iff, ?_, fun h proof => yields_interchainQuery_ok_iff,
    fun hreads => ⟨hreads.asksForProof, ?_, ?_⟩⟩
  · rw [Bool.eq_iff_iff, StorePath.insistsOnProof_iff]
    exact ⟨Iff.mpr, fun hasks => ⟨StorePath.ReadsStore.asksForProof, hasks⟩⟩
  · intro h proof hy
    obtain ⟨a, _, _, hproof, rfl⟩ := yields_interchainQuery_ok_iff.mp hy
    exact Option.ne_none_iff_exists'.mp (hproof hreads)
  · intro a hnone
    cases hread : readInterchain path a with
    | error e => exact ⟨e, fun r => by rw [yields_interrogated_iff, hread]⟩
    | ok proof =>
        obtain ⟨_, hproof, _⟩ := readInterchain_ok_iff.mp hread
        exact absurd hnone (hproof hreads)

/-- A balance as a node answers it. -/
def balanceAnswer (proofOps : Option Schema.Message) : QueryAnswer :=
  ⟨0, "", "", [], Bytes.ofText "100uatom", proofOps, 99⟩

/-- The balance is read with a proof, and refused without one. -/
theorem interchainQuery_insists_balance : ∃ h proof ops e,
    StorePath.ReadsStore "/store/bank/key" ∧
    (provingEnd.interchainQuery "/store/bank/key" [7] 99).run.Yields h (.ok proof) ∧
    proof.proofOps = some ops ∧
    (provingEnd.interchainQuery "/store/bank/key" [7] 99).run.Yields
      (provingEnd.interrogated "/store/bank/key" [7] 99 (balanceAnswer none)) (.error e) := by
  have hreads : StorePath.ReadsStore "/store/bank/key" := ⟨"bank", by decide, rfl⟩
  obtain ⟨_, _, hok, hinsists⟩ := interchainQuery_insists provingEnd "/store/bank/key" [7] 99
  obtain ⟨_, hproven, hmissing⟩ := hinsists hreads
  have hy := (hok _ _).mpr ⟨balanceAnswer (some twoOperations), rfl, rfl, fun _ => nofun, rfl⟩
  obtain ⟨ops, hops⟩ := hproven _ _ hy
  obtain ⟨e, he⟩ := hmissing (balanceAnswer none) rfl
  exact ⟨_, _, ops, e, hreads, hy, hops, (he _).mpr rfl⟩

/-- On a path without the slash in front, a balance is taken without the proof that was asked for. -/
theorem interchainQuery_unproven : ∃ h proof,
    StorePath.asksForProof "store/bank/key" = true ∧
    StorePath.insistsOnProof "store/bank/key" = false ∧
    (provingEnd.interchainQuery "store/bank/key" [7] 99).run.Yields h (.ok proof) ∧
    proof.proofOps = none := by
  have hbrief : ¬ StorePath.ReadsStore "store/bank/key" := by
    rw [← StorePath.insistsOnProof_iff]
    decide +kernel
  refine ⟨_, _, by decide +kernel, by decide +kernel, yields_interchainQuery_ok_iff.mpr
    ⟨balanceAnswer none, rfl, rfl, fun hreads => absurd hreads hbrief, rfl⟩, rfl⟩

end PacketRelay.Provider
