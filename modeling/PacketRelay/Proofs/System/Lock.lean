import PacketRelay.Proofs.System.Basic

/-!
# Locks

What an agent did tells which locks it holds and what it found in their caches.  As long as it holds
a lock, nobody else takes it, gives it back or changes its cache.
-/

namespace PacketRelay

/-- The cache found under the lock on a key, if the lock is held after an exchange. -/
def Exchange.holding (k : KeyId) (found : Option SequenceState) : Exchange → Option SequenceState
  | .answered (.acquire p) st => if p.key = k then some st else found
  | .answered (.release p _) _ => if p.key = k then none else found
  | _ => found

/-- The cache found under the lock on a key, if the lock is held after a history. -/
def heldCache (k : KeyId) (h : List Exchange) : Option SequenceState :=
  h.foldl (Exchange.holding k) none

theorem heldCache_append_singleton (k : KeyId) (h : List Exchange) (x : Exchange) :
    heldCache k (h ++ [x]) = x.holding k (heldCache k h) := by simp [heldCache]

theorem Exchange.holding_of_lockFree {k : KeyId} {x : Exchange} (hx : x.request.LockFree)
    (found : Option SequenceState) : x.holding k found = found := by
  unfold Exchange.holding
  split
  · exact hx.elim
  · exact hx.elim
  · rfl

theorem foldl_holding_of_lockFree {k : KeyId} {h : List Exchange}
    (hh : ∀ x ∈ h, x.request.LockFree) (found : Option SequenceState) :
    h.foldl (Exchange.holding k) found = found := by
  induction h generalizing found with
  | nil => rfl
  | cons x h ih =>
      obtain ⟨hx, hh⟩ := List.forall_mem_cons.mp hh
      rw [List.foldl_cons, Exchange.holding_of_lockFree hx, ih hh]

namespace System

variable {ρ : Type}

theorem holders_after {σ : System ρ} {a : Agent} {x : Exchange} {k : KeyId}
    (hallow : σ.Allows a x) {b : Agent} (hheld : σ.holders k = some b) (hab : a ≠ b) :
    (σ.after a x).holders k = some b ∧ (σ.after a x).caches k = σ.caches k := by
  unfold after
  split
  · next p st =>
    have hne : k ≠ p.key := by
      rintro rfl
      rw [hallow.1] at hheld
      cases hheld
    exact ⟨(Function.update_of_ne hne _ _).trans hheld, rfl⟩
  · next p st _ =>
    have hne : k ≠ p.key := by
      rintro rfl
      have heq : some a = some b := by rw [← hheld, ← show σ.holders p.key = some a from hallow]
      exact hab (Option.some.inj heq)
    exact ⟨(Function.update_of_ne hne _ _).trans hheld, Function.update_of_ne hne _ _⟩
  · exact ⟨hheld, rfl⟩
  · exact ⟨hheld, rfl⟩

theorem holding_after {σ : System ρ} {a : Agent} {x : Exchange} {k : KeyId} {st : SequenceState}
    {found : Option SequenceState} (hallow : σ.Allows a x)
    (hfound : ∀ st', found = some st' → σ.holders k = some a ∧ σ.caches k = st')
    (hst : x.holding k found = some st) :
    (σ.after a x).holders k = some a ∧ (σ.after a x).caches k = st := by
  unfold after
  unfold Exchange.holding at hst
  split at hst
  · next p st' =>
    split at hst
    · next hk =>
      subst hk
      obtain rfl := Option.some.inj hst
      exact ⟨by simp, hallow.2.symm⟩
    · next hk =>
      obtain ⟨hh, hc⟩ := hfound st hst
      exact ⟨(Function.update_of_ne (Ne.symm hk) _ _).trans hh, hc⟩
  · next p st' _ =>
    split at hst
    · cases hst
    · next hk =>
      obtain ⟨hh, hc⟩ := hfound st hst
      exact ⟨(Function.update_of_ne (Ne.symm hk) _ _).trans hh,
        (Function.update_of_ne (Ne.symm hk) _ _).trans hc⟩
  · next hacquire hrelease =>
    split
    · exact absurd rfl (hacquire _ _)
    · exact absurd rfl (hrelease _ _ _)
    · exact hfound st hst
    · exact hfound st hst

theorem Step.holders_caches {σ τ : System ρ} {a : Agent} {x : Exchange} (hstep : Step σ a x τ) :
    σ.Allows a x ∧ τ.holders = (σ.after a x).holders ∧ τ.caches = (σ.after a x).caches := by
  cases hstep with
  | call _ hallow => exact ⟨hallow, rfl, rfl⟩
  | job _ _ hallow => exact ⟨hallow, rfl, rfl⟩

/-- A lock stays with its holder until that gives it back. -/
theorem Step.holders {σ τ : System ρ} {a b : Agent} {x : Exchange} {k : KeyId}
    (hstep : Step σ a x τ) (hheld : σ.holders k = some b) :
    τ.holders k = some b ∨
      a = b ∧ ∃ p st, x = .answered (.release p st) () ∧ p.key = k := by
  obtain ⟨hallow, hholders, -⟩ := hstep.holders_caches
  rw [hholders]
  by_cases hab : a = b
  · subst hab
    unfold after
    split
    · next p st =>
      have hne : k ≠ p.key := by
        rintro rfl
        rw [hallow.1] at hheld
        cases hheld
      exact .inl ((Function.update_of_ne hne _ _).trans hheld)
    · next p st _ =>
      by_cases hk : p.key = k
      · exact .inr ⟨rfl, p, st, rfl, hk⟩
      · exact .inl ((Function.update_of_ne (Ne.symm hk) _ _).trans hheld)
    · exact .inl hheld
    · exact .inl hheld
  · exact .inl (holders_after hallow hheld hab).1

/-- What an agent found under a lock that it holds is what the cache still is. -/
theorem Run.held {σ τ : System ρ} {h : List (Agent × Exchange)} (hr : Run σ h τ)
    {a : Agent} {k : KeyId} {st : SequenceState} (hst : heldCache k (own a h) = some st) :
    τ.holders k = some a ∧ τ.caches k = st := by
  induction hr generalizing st with
  | nil => cases hst
  | @snoc τ τ' h b x _ hstep ih =>
      obtain ⟨hallow, hholders, hcaches⟩ := hstep.holders_caches
      rw [hholders, hcaches]
      rw [own_append] at hst
      by_cases hba : b = a
      · subst hba
        rw [own_singleton_self, heldCache_append_singleton] at hst
        exact holding_after hallow (fun _ => ih) hst
      · rw [own_singleton_ne hba, List.append_nil] at hst
        obtain ⟨hh, hc⟩ := ih hst
        obtain ⟨hh', hc'⟩ := holders_after hallow hh hba
        exact ⟨hh', hc'.trans hc⟩

end System

end PacketRelay
