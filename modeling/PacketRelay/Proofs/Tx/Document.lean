import PacketRelay.Proofs.Submission.Building

/-!
# What a signed document determines

The key signs one document for a transaction.  Its parts stand under numbers of their own, and an
absent part reads as an empty one or as zero, so equal documents have equal parts.  The body and the
authorization in turn are the encodings of one content only.
-/

namespace PacketRelay

open Program
open Schema (Message)
open Schema.Message (ofNumber ofText ofBytes payloadBytes)

namespace UnsignedTx

/-- The number in a field of a signed document, zero when it is absent. -/
def documentNumber (entries : List Wire.Entry) (field : Nat) : UInt64 :=
  match entries.lookup field with
  | some (.word n) => n
  | _ => 0

theorem entries_signDoc (u : UnsignedTx) (f : TxFactory) :
    payloadBytes (u.signDoc f).entries 1 = u.body ∧
      payloadBytes (u.signDoc f).entries 2 = u.authInfo ∧
      payloadBytes (u.signDoc f).entries 3 = Bytes.ofText f.chainId ∧
      documentNumber (u.signDoc f).entries 4 = f.accountNumber := by
  by_cases hb : u.body = [] <;> by_cases ha : u.authInfo = [] <;> by_cases hc : f.chainId = "" <;>
    by_cases hn : f.accountNumber = 0 <;>
    simp [signDoc, ofBytes, ofText, ofNumber, payloadBytes, documentNumber, hb, ha, hc, hn,
      Schema.Value.payload, List.lookup_cons, Bytes.ofText_eq]

theorem signDoc_encode_inj {u u' : UnsignedTx} {f f' : TxFactory}
    (h : (u.signDoc f).encode = (u'.signDoc f').encode) :
    u.body = u'.body ∧ u.authInfo = u'.authInfo ∧ f.chainId = f'.chainId ∧
      f.accountNumber = f'.accountNumber := by
  have he := Message.entries_eq_of_encode_eq h
  obtain ⟨hbody, hauth, hchain, hnumber⟩ := u.entries_signDoc f
  obtain ⟨hbody', hauth', hchain', hnumber'⟩ := u'.entries_signDoc f'
  refine ⟨by rw [← hbody, ← hbody', he], by rw [← hauth, ← hauth', he], ?_,
    by rw [← hnumber, ← hnumber', he]⟩
  rw [← Bytes.ofText_inj, ← hchain, ← hchain', he]

end UnsignedTx

namespace Provider

/-- A signing in which the key is given the document `d`. -/
def SignsDocument (p : Provider) (f : TxFactory) (u : UnsignedTx) (d : Bytes) : Prop :=
  ∃ h r signature, (p.signTx f u).run.Yields h r ∧ .answered (.sign p d) signature ∈ h

variable {p p' : Provider} {f f' : TxFactory} {u u' : UnsignedTx} {d : Bytes}

/-- Only the direct mode signs, and it signs the document of the transaction. -/
theorem signsDocument_iff :
    p.SignsDocument f u d ↔ f.signMode = .direct ∧ d = (u.signDoc f).encode := by
  constructor
  · rintro ⟨h, r, signature, hy, hmem⟩
    rw [signTx_eq] at hy
    split at hy
    · obtain ⟨rfl, _⟩ := Attempt.yields_throw_iff.mp hy
      cases hmem
    · next hmode =>
      have hasks : Asks (· = .sign p (u.signDoc f).encode) (do
          let signature ← Attempt.demand (request (.sign p (u.signDoc f).encode))
          return u.withSignature signature : Attempt Message).run :=
        Attempt.asks_bind (Program.asks_request rfl) fun _ => Attempt.asks_pure _
      have hsign : Request.sign p d = .sign p (u.signDoc f).encode := hy.asks hasks _ hmem
      cases hsign
      exact ⟨Decidable.not_not.mp hmode, rfl⟩
  · rintro ⟨hmode, rfl⟩
    refine ⟨[.answered (.sign p (u.signDoc f).encode) (.ok [])], .ok (u.withSignature []), .ok [],
      ?_, List.mem_singleton.mpr rfl⟩
    rw [signTx_eq, if_neg (by simp [hmode])]
    have hrequest : (Attempt.demand (request (.sign p (u.signDoc f).encode))).run.Yields
        [.answered (.sign p (u.signDoc f).encode) (.ok [])] (.ok []) :=
      yields_request_iff.mpr rfl
    exact Attempt.yields_bind_ok_iff.mpr ⟨_, [], [], rfl, hrequest, Attempt.yields_pure_iff.mpr
      ⟨rfl, rfl⟩⟩

/-- A signed document belongs to one transaction.  Whatever was given to be signed, equal documents
have equal bodies and authorizations and are for the same account of the same chain.  If the
transactions were built from settings and messages, these agree in all that they say: the messages
in their order, the memo, the public key, the sequence, the fees and the gas. -/
theorem signed_document_determines :
    (∀ (p p' : Provider) (f f' : TxFactory) (u u' : UnsignedTx) (d : Bytes),
      p.SignsDocument f u d → p'.SignsDocument f' u' d →
      u.body = u'.body ∧ u.authInfo = u'.authInfo ∧ f.chainId = f'.chainId ∧
        f.accountNumber = f'.accountNumber) ∧
    (∀ (p p' : Provider) (f f' g g' : TxFactory) (msgs msgs' : List Any) (d : Bytes),
      p.SignsDocument g (p.unsignedTx f msgs) d → p'.SignsDocument g' (p'.unsignedTx f' msgs') d →
      msgs = msgs' ∧ f.memo = f'.memo ∧ p.publicKey = p'.publicKey ∧ f.sequence = f'.sequence ∧
        f.fee.amount = f'.fee.amount ∧ f.gas = f'.gas) := by
  have hparts (p p' : Provider) (f f' : TxFactory) (u u' : UnsignedTx) (d : Bytes)
      (hd : p.SignsDocument f u d) (hd' : p'.SignsDocument f' u' d) :
      u.body = u'.body ∧ u.authInfo = u'.authInfo ∧ f.chainId = f'.chainId ∧
        f.accountNumber = f'.accountNumber := by
    obtain ⟨_, rfl⟩ := signsDocument_iff.mp hd
    obtain ⟨_, heq⟩ := signsDocument_iff.mp hd'
    exact UnsignedTx.signDoc_encode_inj heq
  refine ⟨hparts, fun p p' f f' g g' msgs msgs' d hd hd' => ?_⟩
  obtain ⟨hbody, hauth, _, _⟩ := hparts p p' g g' _ _ d hd hd'
  obtain ⟨hmessages, hmemo⟩ := TxFactory.messages_memo_eq_of_body_eq hbody
  obtain ⟨hfees, hgas⟩ := TxFactory.fees_gas_eq_of_authInfo_eq hauth
  exact ⟨hmessages, hmemo, TxFactory.publicKey_eq_of_authInfo_eq hauth,
    TxFactory.sequence_eq_of_authInfo_eq hauth, hfees, hgas⟩

/-- A provider of one key.  Neither its number nor how it adjusts the gas is signed. -/
def signingEnd (id : Nat) (gasAdjustment : Float) : Provider :=
  ⟨id, ⟨"chain-1", "key", "cosmos", gasAdjustment, ⟨0, "stake"⟩, 0, 0, .direct, .ofSeconds 10,
    .ofSeconds 1, ⟨1, .ofMillis 10, true⟩⟩, [2, 7]⟩

/-- A transaction of one message without a value. -/
def memoTx (p : Provider) (memo : String) : UnsignedTx :=
  p.unsignedTx { p.factory with memo } [⟨"/m", []⟩]

theorem signDoc_signingEnd (id id' : Nat) (gasAdjustment gasAdjustment' : Float) (memo : String) :
    ((signingEnd id gasAdjustment).memoTx memo).signDoc (signingEnd id gasAdjustment).factory =
      ((signingEnd id' gasAdjustment').memoTx memo).signDoc
        (signingEnd id' gasAdjustment').factory := by
  simp only [memoTx, signingEnd, factory, unsignedTx, UnsignedTx.signDoc, TxFactory.body,
    TxFactory.authInfo, TxFactory.signerInfo, TxFactory.fee]

/-- Two providers of a key sign one document for the same messages; with a memo and without one there
is no such document. -/
theorem signed_document_determines_two_ends :
    (∃ d, (signingEnd 0 1).SignsDocument (signingEnd 0 1).factory ((signingEnd 0 1).memoTx "") d ∧
      (signingEnd 1 2).SignsDocument (signingEnd 1 2).factory ((signingEnd 1 2).memoTx "") d ∧
      ((signingEnd 0 1).memoTx "").body = ((signingEnd 1 2).memoTx "").body ∧
      (signingEnd 0 1).factory.fee.amount = (signingEnd 1 2).factory.fee.amount) ∧
    ¬ ∃ d,
      (signingEnd 0 1).SignsDocument (signingEnd 0 1).factory ((signingEnd 0 1).memoTx "") d ∧
      (signingEnd 0 1).SignsDocument (signingEnd 0 1).factory ((signingEnd 0 1).memoTx "m") d := by
  obtain ⟨hparts, hcontent⟩ := signed_document_determines
  constructor
  · let document := (((signingEnd 1 2).memoTx "").signDoc (signingEnd 1 2).factory).encode
    have hone : (signingEnd 0 1).SignsDocument (signingEnd 0 1).factory
        ((signingEnd 0 1).memoTx "") document :=
      signsDocument_iff.mpr ⟨rfl, congrArg Message.encode (signDoc_signingEnd 1 0 2 1 "")⟩
    have hother : (signingEnd 1 2).SignsDocument (signingEnd 1 2).factory
        ((signingEnd 1 2).memoTx "") document := signsDocument_iff.mpr ⟨rfl, rfl⟩
    obtain ⟨hbody, _, _, _⟩ := hparts _ _ _ _ _ _ _ hone hother
    obtain ⟨_, _, _, _, hfees, _⟩ := hcontent _ _ _ _ _ _ _ _ _ hone hother
    exact ⟨_, hone, hother, hbody, hfees⟩
  · rintro ⟨d, hplain, hmarked⟩
    obtain ⟨_, hmemo, _⟩ := hcontent _ _ _ _ _ _ _ _ d hplain hmarked
    have hne : ("" : String) ≠ "m" := by decide
    exact hne hmemo

end Provider

end PacketRelay
