import Mathlib.Data.List.Induction
import PacketRelay.Proofs.Submission.Concurrent
import PacketRelay.Proofs.Submission.Outcome

/-!
# What happens to a key

In a run of submissions the lock on a key is taken and given back.  Only its holder looks the account
of the key up and has transactions of the key accepted, and these with the sequence that the cache
shows after the look-up.
-/

namespace PacketRelay

open Program

/-- A transaction of the key was accepted. -/
def Exchange.acceptedFor (k : KeyId) : Exchange → Bool
  | .answered (.call p (.broadcast _)) (.ok a) => a.code = 0 ∧ p.key = k
  | _ => false

theorem Exchange.acceptedFor_iff {k : KeyId} {x : Exchange} : x.acceptedFor k = true ↔
    ∃ p tx a, x = .answered (.call p (.broadcast tx)) (.ok a) ∧ a.code = 0 ∧ p.key = k := by
  constructor
  · intro hx
    unfold acceptedFor at hx
    split at hx
    · next p tx a => exact ⟨p, tx, a, rfl, of_decide_eq_true hx⟩
    · cases hx
  · rintro ⟨p, tx, a, rfl, hcode, hkey⟩
    exact decide_eq_true ⟨hcode, hkey⟩

theorem Exchange.Accepts.acceptedFor {k : KeyId} {n : UInt64} {x : Exchange} (hx : x.Accepts k n) :
    x.acceptedFor k = true := by
  obtain ⟨p, tx, a, rfl, hcode, hkey, _⟩ := hx
  exact acceptedFor_iff.mpr ⟨p, tx, a, rfl, hcode, hkey⟩

theorem Exchange.acceptedFor_eq_false {k : KeyId} {x : Exchange} (hx : x.broadcast? = none) :
    x.acceptedFor k = false := by
  rw [← Bool.not_eq_true, acceptedFor_iff]
  rintro ⟨p, tx, a, rfl, _⟩
  cases hx

theorem lookedUp?_append_of_some {h h' : List Exchange} {v : UInt64 × UInt64}
    (hv : lookedUp? h = some v) : lookedUp? (h ++ h') = some v := by
  unfold lookedUp? at hv ⊢
  obtain ⟨account, haccount, rfl⟩ := Option.map_eq_some_iff.mp hv
  have hlt := (List.getElem?_eq_some_iff.mp haccount).1
  rw [List.filterMap_append, List.getElem?_append_left hlt, haccount]
  rfl

theorem getElem?_snoc_eq_some {α : Type} {l : List α} {x y : α} {j : Nat}
    (h : (l ++ [x])[j]? = some y) : l[j]? = some y ∨ j = l.length ∧ y = x := by
  rcases Nat.lt_trichotomy j l.length with hlt | rfl | hgt
  · exact .inl (by rwa [List.getElem?_append_left hlt] at h)
  · rw [List.getElem?_concat_length] at h
    exact .inr ⟨rfl, (Option.some.inj h).symm⟩
  · rw [List.getElem?_eq_none (by rw [List.length_append]; exact hgt)] at h
    cases h

/-- A submission that does not fail with a mismatch leaves the sequence that the look-up left, or the
one after it if its transaction was accepted. -/
theorem Submission.Locked.next_eq {c : Submission} {state st : SequenceState} {body : List Exchange}
    {r : Except RelayError PendingTx} (hl : c.Locked state body st r)
    (hr : ∀ e, r = .error e → e.isSequenceMismatch = false) :
    st.next = if body.any (Exchange.acceptedFor c.provider.key)
      then max (state.afterLookup body).next ((state.afterLookup body).next + 1)
      else (state.afterLookup body).next := by
  have hsettled := hl.settles
  cases r with
  | error e =>
      obtain ⟨hnone, _, _, hnext⟩ := hsettled
      have hany : ¬ body.any (Exchange.acceptedFor c.provider.key) := by
        rintro hany
        obtain ⟨x, hx, hacc⟩ := List.any_eq_true.mp hany
        obtain ⟨p, tx, a, rfl, hcode, _⟩ := Exchange.acceptedFor_iff.mp hacc
        exact hnone _ hx hcode
      rw [if_neg hany]
      exact hnext fun n hn => by simp [hn.1] at hr
  | ok pending =>
      obtain ⟨hsequence, _, ⟨x, hx, haccepts⟩, hst⟩ := hsettled
      rw [if_pos (List.any_eq_true.mpr ⟨x, hx, haccepts.acceptedFor⟩), hst, hsequence,
        SequenceState.next_advance]

theorem exists_shownAccount_of_lookedUp {h : List Exchange} {x : Exchange} {v : UInt64 × UInt64}
    (hnone : lookedUp? h = none) (hv : lookedUp? (h ++ [x]) = some v) :
    ∃ account, x.shownAccount? = some account ∧ v = (account.number 3, account.number 4) := by
  cases hx : x.shownAccount? with
  | none =>
      rw [lookedUp?, List.filterMap_append, List.filterMap_cons_none hx, List.filterMap_nil,
        List.append_nil, ← lookedUp?, hnone] at hv
      cases hv
  | some account =>
      rw [lookedUp?, List.filterMap_append, List.filterMap_cons_some hx, List.filterMap_nil] at hv
      obtain ⟨shown, hshown, rfl⟩ := Option.map_eq_some_iff.mp hv
      obtain hbefore | ⟨_, rfl⟩ := getElem?_snoc_eq_some hshown
      · rw [lookedUp?, hbefore] at hnone
        cases hnone
      · exact ⟨shown, rfl, rfl⟩

namespace System

/-- The transactions of a key that were accepted, in the order of the run. -/
def acceptances (k : KeyId) (h : List (Agent × Exchange)) : List (Agent × Exchange) :=
  h.filter fun e => e.2.acceptedFor k

/-- The sequence that a submission of the key looks up with an exchange, if it does. -/
def lookup? (calls : Nat → Submission) (k : KeyId) (before : List (Agent × Exchange)) :
    Agent × Exchange → Option UInt64
  | (.call i, x) =>
    if (calls i).provider.key = k ∧ lookedUp? (own (.call i) before) = none then
      (lookedUp? (own (.call i) before ++ [x])).map Prod.snd
    else none
  | (.job _, _) => none

/-- The sequences that the submissions of a key look up, in the order of the run. -/
def lookups (calls : Nat → Submission) (k : KeyId) (h : List (Agent × Exchange)) : List UInt64 :=
  go [] h
where
  /-- `before` holds the exchanges that went before. -/
  go (before : List (Agent × Exchange)) : List (Agent × Exchange) → List UInt64
    | [] => []
    | e :: h => (lookup? calls k before e).toList ++ go (before ++ [e]) h

variable {caches : KeyId → SequenceState} {calls : Nat → Submission} {k : KeyId}
  {σ τ : System (Except RelayError PendingTx)} {h : List (Agent × Exchange)} {a : Agent}
  {x : Exchange}

theorem acceptances_append (h h' : List (Agent × Exchange)) :
    acceptances k (h ++ h') = acceptances k h ++ acceptances k h' := List.filter_append ..

theorem acceptances_snoc_of_accepted (h : List (Agent × Exchange)) (a : Agent)
    (hx : x.acceptedFor k = true) : acceptances k (h ++ [(a, x)]) = acceptances k h ++ [(a, x)] := by
  rw [acceptances_append]
  simp [acceptances, hx]

theorem acceptances_snoc_of_not_accepted (h : List (Agent × Exchange)) (a : Agent)
    (hx : x.acceptedFor k = false) : acceptances k (h ++ [(a, x)]) = acceptances k h := by
  rw [acceptances_append]
  simp [acceptances, hx]

theorem lookups_snoc (h : List (Agent × Exchange)) (e : Agent × Exchange) :
    lookups calls k (h ++ [e]) = lookups calls k h ++ (lookup? calls k h e).toList := by
  have hgo (before : List (Agent × Exchange)) : lookups.go calls k before (h ++ [e]) =
      lookups.go calls k before h ++ (lookup? calls k (before ++ h) e).toList := by
    induction h generalizing before with
    | nil => simp [lookups.go]
    | cons e' h ih =>
        rw [List.cons_append, lookups.go, ih, lookups.go, List.append_assoc, List.append_assoc]
        rfl
  exact hgo []

theorem lookup?_eq_some_iff {e : Agent × Exchange} {q : UInt64} :
    lookup? calls k h e = some q ↔ ∃ i number, e.1 = .call i ∧ (calls i).provider.key = k ∧
      lookedUp? (own e.1 h) = none ∧ lookedUp? (own e.1 h ++ [e.2]) = some (number, q) := by
  obtain ⟨a, x⟩ := e
  cases a with
  | job n => simp [lookup?]
  | call i =>
      constructor
      · intro hq
        by_cases hfirst : (calls i).provider.key = k ∧ lookedUp? (own (.call i) h) = none
        · rw [lookup?, if_pos hfirst] at hq
          obtain ⟨⟨number, q'⟩, hlooked, rfl⟩ := Option.map_eq_some_iff.mp hq
          exact ⟨i, number, rfl, hfirst.1, hfirst.2, hlooked⟩
        · rw [lookup?, if_neg hfirst] at hq
          cases hq
      · rintro ⟨j, number, hj, hkey, hnone, hlooked⟩
        cases hj
        rw [lookup?, if_pos ⟨hkey, hnone⟩, hlooked]
        rfl

theorem lookups_snoc_of_not_asksAccount (h : List (Agent × Exchange)) (a : Agent)
    (hx : ¬ x.request.AsksAccount) : lookups calls k (h ++ [(a, x)]) = lookups calls k h := by
  have hnone : lookup? calls k h (a, x) = none := by
    cases hq : lookup? calls k h (a, x) with
    | none => rfl
    | some q =>
        obtain ⟨i, number, _, _, hnone, hlooked⟩ := lookup?_eq_some_iff.mp hq
        rw [lookedUp?_append fun y hy => List.mem_singleton.mp hy ▸ hx, hnone] at hlooked
        cases hlooked
  rw [lookups_snoc, hnone]
  exact List.append_nil _

theorem lookups_append (h h' : List (Agent × Exchange)) :
    ∃ l, lookups calls k (h ++ h') = lookups calls k h ++ l := by
  induction h' using List.reverseRecOn with
  | nil => exact ⟨[], by rw [List.append_nil, List.append_nil]⟩
  | append_singleton h' e ih =>
      obtain ⟨l, hl⟩ := ih
      exact ⟨l ++ (lookup? calls k (h ++ h') e).toList, by
        rw [← List.append_assoc, lookups_snoc, hl, List.append_assoc]⟩

theorem exists_lookup_of_mem {q : UInt64} (hq : q ∈ lookups calls k h) :
    ∃ before e after, h = before ++ e :: after ∧ lookup? calls k before e = some q := by
  induction h using List.reverseRecOn with
  | nil => cases hq
  | append_singleton h e ih =>
      rw [lookups_snoc, List.mem_append, Option.mem_toList] at hq
      obtain hq | hq := hq
      · obtain ⟨before, e', after, rfl, hevent⟩ := ih hq
        exact ⟨before, e', after ++ [e], by simp, hevent⟩
      · exact ⟨h, e, [], rfl, hq⟩

theorem lookups_ne_nil {i : Nat} (hkey : (calls i).provider.key = k)
    (hlooked : (lookedUp? (own (.call i) h)).isSome) : lookups calls k h ≠ [] := by
  induction h using List.reverseRecOn with
  | nil => cases hlooked
  | append_singleton h e ih =>
      obtain ⟨a, x⟩ := e
      rw [lookups_snoc]
      cases hbefore : lookedUp? (own (.call i) h) with
      | some v => exact List.append_ne_nil_of_left_ne_nil (ih (by rw [hbefore]; rfl)) _
      | none =>
          rw [own_append] at hlooked
          by_cases ha : a = .call i
          · subst ha
            rw [own_singleton_self] at hlooked
            obtain ⟨⟨number, q⟩, hq⟩ := Option.isSome_iff_exists.mp hlooked
            have hevent : lookup? calls k h (.call i, x) = some q :=
              lookup?_eq_some_iff.mpr ⟨i, number, rfl, hkey, hbefore, hq⟩
            rw [hevent]
            exact List.append_ne_nil_of_right_ne_nil _ (List.cons_ne_nil q [])
          · rw [own_singleton_ne ha, List.append_nil, hbefore] at hlooked
            cases hlooked

/-- A step takes the lock on a key, gives it back or leaves it and its cache alone. -/
inductive LockStep (calls : Nat → Submission) (k : KeyId) (h : List (Agent × Exchange))
    (σ : System (Except RelayError PendingTx)) (a : Agent) (x : Exchange)
    (τ : System (Except RelayError PendingTx)) : Prop where
  | acquired {i : Nat} {st : SequenceState} :
    a = .call i → (calls i).provider.key = k → x = .answered (.acquire (calls i).provider) st →
      own a h = [.answered .rest ()] → σ.holders k = none → τ.holders k = some a →
      τ.caches k = σ.caches k → LockStep calls k h σ a x τ
  | released {i : Nat} {body : List Exchange} {st : SequenceState}
      {r : Except RelayError PendingTx} :
    a = .call i → (calls i).provider.key = k → x = .answered (.release (calls i).provider st) () →
      (calls i).Locked (σ.caches k) body st r →
      own a h = .answered .rest () :: .answered (.acquire (calls i).provider) (σ.caches k) :: body →
      τ.calls i = .done r → σ.holders k = some a → τ.holders k = none → τ.caches k = st →
      LockStep calls k h σ a x τ
  | kept : τ.holders k = σ.holders k → τ.caches k = σ.caches k → LockStep calls k h σ a x τ

theorem Run.lock_step (hr : Run (submitting caches calls) h σ) (hstep : Step σ a x τ) :
    LockStep calls k h σ a x τ := by
  obtain ⟨hallow, hholders, hcaches⟩ := hstep.holders_caches
  cases x with
  | stopped n r => exact .kept (by rw [hholders]; rfl) (by rw [hcaches]; rfl)
  | answered r b =>
      cases r with
      | acquire p =>
          by_cases hkey : p.key = k
          · subst hkey
            obtain ⟨i, rfl, h', r, _, hsubmit⟩ := hr.exists_submitRun hstep not_false
            obtain ⟨rfl, hown⟩ := hsubmit.of_acquire
            refine .acquired rfl rfl rfl hown hallow.1 ?_ ?_
            · rw [hholders]
              exact Function.update_self _ _ _
            · rw [hcaches]
              rfl
          · refine .kept ?_ ?_
            · rw [hholders]
              exact Function.update_of_ne (Ne.symm hkey) _ _
            · rw [hcaches]
              rfl
      | release p st =>
          by_cases hkey : p.key = k
          · subst hkey
            obtain ⟨i, rfl, rfl, body, r, hl, hown, hdone⟩ := hr.releases hstep
            refine .released rfl rfl rfl hl hown hdone hallow ?_ hstep.caches_release
            rw [hholders]
            exact Function.update_self _ _ _
          · refine .kept ?_ ?_
            · rw [hholders]
              exact Function.update_of_ne (Ne.symm hkey) _ _
            · rw [hcaches]
              exact Function.update_of_ne (Ne.symm hkey) _ _
      | _ => exact .kept (by rw [hholders]; rfl) (by rw [hcaches]; rfl)

/-- What is accepted follows a look-up under the lock, and carries the sequence of the cache or of
the account, whichever is greater. -/
theorem Run.acceptance_step (hr : Run (submitting caches calls) h σ) (hstep : Step σ a x τ)
    (hx : x.acceptedFor k = true) : ∃ i number q, a = .call i ∧ (calls i).provider.key = k ∧
      σ.holders k = some a ∧ lookedUp? (own a h) = some (number, q) ∧
      x.Accepts k (max (σ.caches k).next q) ∧ ∀ y ∈ own a h, y.acceptedFor k = false := by
  obtain ⟨p, tx, answer, rfl, hcode, hkey⟩ := Exchange.acceptedFor_iff.mp hx
  obtain ⟨i, rfl, h', r, _, hsubmit⟩ := hr.exists_submitRun hstep not_false
  obtain ⟨_, hi, _, st', body, r', hl, hmem⟩ := hr.broadcasts hstep rfl
  obtain rfl := Agent.call.inj hi
  obtain rfl : p = (calls i).provider := hl.holds _ hmem
  obtain ⟨state, hb, st, built, hown, hbuild, rfl⟩ := hsubmit.of_broadcast rfl
  have hfree : ∀ y ∈ hb ++ [.answered .rest ()], y.request.LockFree := by
    intro y hy
    obtain hy | hy := List.mem_append.mp hy
    · exact ((Provider.build_holds hbuild).1 y hy).lockFree
    · rw [List.mem_singleton.mp hy]
      trivial
  have hheld : heldCache k (own (.call i) h) = some state := by
    rw [hown, ← hkey]
    exact heldCache_of_lockFree hfree
  obtain ⟨hholder, hcache⟩ := hr.held hheld
  have hlooked : lookedUp? (own (.call i) h) = lookedUp? hb := by
    rw [hown]
    exact lookedUp?_append (h := hb) (by simp [Request.AsksAccount])
  obtain ⟨hst, hsome⟩ := Provider.yields_build_state hbuild
  obtain ⟨⟨number, q⟩, hq⟩ := Option.isSome_iff_exists.mp (hsome built rfl)
  have hnext : st.next = max (σ.caches k).next q := by
    rw [hst, SequenceState.afterLookup, hq, hcache]
  obtain ⟨_, hsigned, _⟩ := Provider.yields_build_ok hbuild
  refine ⟨i, number, q, rfl, hkey, hholder, hlooked.trans hq, ?_, ?_⟩
  · rw [← hnext]
    exact ⟨_, _, answer, rfl, hcode, hkey, hsigned⟩
  · intro y hy
    rw [hown] at hy
    simp only [List.mem_cons, List.mem_append, List.not_mem_nil, or_false] at hy
    obtain rfl | rfl | hy | rfl := hy
    · rfl
    · rfl
    · exact Exchange.acceptedFor_eq_false
        (List.filterMap_eq_nil_iff.mp (Provider.build_holds hbuild).2 y hy)
    · rfl

/-- An account is looked up by the holder of the lock, with an account query. -/
theorem Run.lookup_step {q : UInt64} (hr : Run (submitting caches calls) h σ)
    (hstep : Step σ a x τ) (hq : lookup? calls k h (a, x) = some q) :
    σ.holders k = some a ∧ x.request.AsksAccount := by
  obtain ⟨i, number, hi, hkey, hnone, hlooked⟩ := lookup?_eq_some_iff.mp hq
  obtain rfl : a = .call i := hi
  have hasks : x.request.AsksAccount := by
    by_contra hasks
    rw [lookedUp?_append fun y hy => List.mem_singleton.mp hy ▸ hasks, hnone] at hlooked
    cases hlooked
  have hjob : ¬ x.request.OfJob := by
    intro hjob
    unfold Request.AsksAccount at hasks
    split at hasks
    · next hreq =>
      rw [hreq] at hjob
      exact hjob
    · exact hasks
  obtain ⟨j, hj, h', r, _, hsubmit⟩ := hr.exists_submitRun hstep hjob
  obtain rfl := Agent.call.inj hj
  obtain (hreq | hreq) | ⟨state, st, body, _, hheld, _⟩ := hsubmit.phase
  · rw [hreq] at hasks
    exact hasks.elim
  · rw [hreq] at hasks
    exact hasks.elim
  · rw [hkey] at hheld
    exact ⟨(hr.held hheld).1, hasks⟩

theorem Run.lookedUp_of_accepted (hr : Run (submitting caches calls) h σ) {y : Exchange}
    (hy : y ∈ own a h) (haccepted : y.acceptedFor k = true) :
    ∃ i, a = .call i ∧ (calls i).provider.key = k ∧ (lookedUp? (own a h)).isSome := by
  induction hr with
  | nil => cases hy
  | @snoc τ τ' h b x hrun hstep ih =>
      rw [own_append] at hy ⊢
      obtain hy | hy := List.mem_append.mp hy
      · obtain ⟨i, hi, hkey, hsome⟩ := ih hy
        obtain ⟨v, hv⟩ := Option.isSome_iff_exists.mp hsome
        exact ⟨i, hi, hkey, by rw [lookedUp?_append_of_some hv]; rfl⟩
      · have hmem := mem_own.mp hy
        obtain ⟨rfl, rfl⟩ := Prod.mk.inj (List.mem_singleton.mp hmem)
        obtain ⟨i, number, q, hi, hkey, _, hlooked, _⟩ := hrun.acceptance_step hstep haccepted
        exact ⟨i, hi, hkey, by rw [lookedUp?_append_of_some hlooked]; rfl⟩

end System

end PacketRelay
