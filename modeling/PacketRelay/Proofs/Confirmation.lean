import PacketRelay.Confirmation
import PacketRelay.Proofs.Program.Guard

/-!
# Confirmations

A transaction is confirmed only when a look-up of its hash found it in a block with code zero.
-/

namespace PacketRelay.Provider

open Program

variable {p : Provider} {s : Signal} {hash : String} {h : List Exchange}

theorem judgeLookup_eq_some_ok {found : Except RelayError (Option TxResult)} {r : TxResult}
    (hfound : judgeLookup found = some (.ok r)) : found = .ok (some r) := by
  unfold judgeLookup at hfound
  split at hfound
  · obtain rfl := Except.ok.inj (Option.some.inj hfound)
    rfl
  · cases hfound
  · cases hfound
  · split at hfound <;> cases hfound

/-- A wait ends with a transaction only when a look-up found it. -/
theorem yields_lookupUntil {timeout : Duration} {deadline rounds : Nat} {r : TxResult}
    (hy : (p.lookupUntil hash timeout deadline s rounds).Yields h (.ok r)) :
    .answered (.call p (.tx hash)) (.ok (some r)) ∈ h := by
  induction rounds generalizing h with
  | zero =>
      obtain ⟨_, hr⟩ := yields_done_iff.mp hy
      cases hr
  | succ rounds ih =>
      obtain ⟨h₁, now, h₂, rfl, _, hy₁⟩ := yields_bind_iff.mp hy
      obtain ⟨h₂, x, h₃, rfl, _, hy₂⟩ := yields_bind_iff.mp hy₁
      cases x with
      | error e =>
          obtain ⟨_, hr⟩ := yields_done_iff.mp hy₂
          cases hr
      | ok _ =>
          dsimp only at hy₂
          split at hy₂
          · obtain ⟨_, hr⟩ := yields_done_iff.mp hy₂
            cases hr
          obtain ⟨h₃, found, h₄, rfl, hlookup, hy₃⟩ := yields_bind_iff.mp hy₂
          cases hjudge : judgeLookup found with
          | some result =>
              rw [hjudge] at hy₃
              obtain ⟨rfl, rfl⟩ := yields_done_iff.mp hy₃
              obtain rfl := judgeLookup_eq_some_ok hjudge
              cases Attempt.yields_guard hlookup with
              | finished hfinished =>
                  obtain ⟨answer, h₅, rfl, hanswer⟩ :=
                    Attempt.yields_request_bind_iff.mp hfinished
                  obtain ⟨rfl, rfl⟩ := Attempt.yields_ofExcept_iff.mp hanswer
                  simp
          | none =>
              rw [hjudge] at hy₃
              cases found with
              | error e =>
                  obtain ⟨h₄, _, h₅, rfl, _, hrest⟩ := yields_bind_iff.mp hy₃
                  simp [ih hrest]
              | ok found => simp [ih hy₃]

theorem confirmationOf_eq_confirmed {x : Except RelayError TxResult} {response : TxResponse}
    (hx : confirmationOf x = .confirmed response) :
    ∃ r, x = .ok r ∧ r.code = 0 ∧ response = .ofResult r := by
  unfold confirmationOf at hx
  split at hx
  · next r =>
    split at hx
    · next hcode => exact ⟨r, rfl, hcode, (Confirmation.confirmed.inj hx).symm⟩
    · cases hx
  · cases hx
  · cases hx

theorem yields_confirm {response : TxResponse}
    (hy : (p.confirm hash s).Yields h (.confirmed response)) :
    ∃ r, .answered (.call p (.tx hash)) (.ok (some r)) ∈ h ∧ r.code = 0 ∧
      response = .ofResult r := by
  obtain ⟨h₁, x, h₂, rfl, hawait, hy₁⟩ := yields_bind_iff.mp hy
  obtain ⟨h₂, _, h₃, rfl, _, hy₂⟩ := yields_bind_iff.mp hy₁
  obtain ⟨rfl, hconfirmed⟩ := yields_done_iff.mp hy₂
  obtain ⟨r, rfl, hcode, hresponse⟩ := confirmationOf_eq_confirmed hconfirmed.symm
  obtain ⟨start, h₄, rfl, hlookups⟩ := Attempt.yields_request_bind_iff.mp hawait
  exact ⟨r, by simp [yields_lookupUntil hlookups], hcode, hresponse⟩

end PacketRelay.Provider
