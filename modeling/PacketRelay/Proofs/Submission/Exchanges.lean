import PacketRelay.Proofs.Submission.Locked

/-!
# The exchanges of a submission

Between taking the lock and giving it back a submission touches no lock, and it broadcasts at most
once.  The broadcast carries what was built, and an accepted one decides the state that is left.
-/

namespace PacketRelay

theorem append_cons_eq_cons_cons {α : Type} {h₁ h₂ t : List α} {x a b : α}
    (h : h₁ ++ x :: h₂ = a :: b :: t) :
    x = a ∨ (x = b ∧ h₁ = [a]) ∨ ∃ g, h₁ = a :: b :: g ∧ g ++ x :: h₂ = t := by
  rcases h₁ with _ | ⟨y, _ | ⟨z, g⟩⟩
  · exact .inl (List.cons.inj h).1
  · obtain ⟨rfl, hrest⟩ := List.cons.inj h
    exact .inr (.inl ⟨(List.cons.inj hrest).1, rfl⟩)
  · obtain ⟨rfl, hrest⟩ := List.cons.inj h
    obtain ⟨rfl, htail⟩ := List.cons.inj hrest
    exact .inr (.inr ⟨g, rfl, htail⟩)

theorem append_cons_eq_snoc {α : Type} {h₁ h₂ l : List α} {x y : α}
    (h : h₁ ++ x :: h₂ = l ++ [y]) :
    (∃ t, l = h₁ ++ x :: t) ∨ x = y ∧ h₂ = [] ∧ h₁ = l := by
  rcases List.eq_nil_or_concat h₂ with rfl | ⟨t, z, rfl⟩
  · obtain ⟨hl, hx⟩ := List.append_inj' h rfl
    exact .inr ⟨(List.cons.inj hx).1, rfl, hl⟩
  · have hlast : (h₁ ++ x :: t) ++ [z] = l ++ [y] := by
      simpa using h
    exact .inl ⟨t, (List.append_inj' hlast rfl).1.symm⟩

theorem append_cons_unique {α : Type} {P : α → Prop} {l₁ l₂ m₁ m₂ : List α} {x y : α}
    (h : l₁ ++ x :: l₂ = m₁ ++ y :: m₂) (hx : P x) (hm₁ : ∀ z ∈ m₁, ¬ P z)
    (hm₂ : ∀ z ∈ m₂, ¬ P z) : l₁ = m₁ ∧ x = y := by
  obtain ⟨t, rfl, ht⟩ | ⟨t, rfl, ht⟩ := List.append_eq_append_iff.mp h
  · cases t with
    | nil => exact ⟨(List.append_nil l₁).symm, (List.cons.inj ht).1⟩
    | cons z t =>
        obtain rfl := (List.cons.inj ht).1
        exact absurd hx (hm₁ x (by simp))
  · cases t with
    | nil => exact ⟨List.append_nil m₁, (List.cons.inj ht).1.symm⟩
    | cons z t =>
        have hmem : x ∈ m₂ := by
          rw [(List.cons.inj ht).2]
          simp
        exact absurd hx (hm₂ x hmem)

/-- The requests of a provider that holds the lock. -/
def Request.Holds (p : Provider) : Request → Prop
  | .call q (.broadcast _) => q = p
  | .record q _ | .spend q _ | .spawn q (.confirm ..) => q = p
  | r => r.Builds p

theorem Request.Builds.holds {p : Provider} {r : Request} (h : r.Builds p) : r.Holds p := by
  cases r with
  | call q c =>
      cases c with
      | broadcast tx => exact h.elim
      | _ => exact h
  | record q m => exact h.1
  | spend q fees => exact h.elim
  | spawn q j => exact h.elim
  | _ => exact h

/-- The requests by which it broadcasts. -/
def Request.Delivers (p : Provider) : Request → Prop
  | .rest => True
  | .call q (.broadcast _) => q = p
  | .record q _ | .spend q _ | .spawn q (.confirm ..) => q = p
  | _ => False

theorem Request.Delivers.holds {p : Provider} {r : Request} (h : r.Delivers p) : r.Holds p := by
  cases r with
  | rest => trivial
  | call q c =>
      cases c with
      | broadcast tx => exact h
      | _ => exact h.elim
  | record q m => exact h
  | spend q fees => exact h
  | spawn q j =>
      cases j with
      | confirm hash s => exact h
      | report caller outcome => exact h.elim
  | _ => exact h.elim

theorem Request.Holds.lockFree {p : Provider} {r : Request} (h : r.Holds p) : r.LockFree := by
  cases r <;> trivial

/-- The transaction that is broadcast. -/
def Exchange.broadcast? (x : Exchange) : Option Bytes :=
  match x.request with
  | .call _ (.broadcast tx) => some tx
  | _ => none

theorem Request.Builds.broadcast?_eq_none {p : Provider} {x : Exchange}
    (h : x.request.Builds p) : x.broadcast? = none := by
  unfold Exchange.broadcast?
  split
  · next hr =>
    rw [hr] at h
    exact h.elim
  · rfl

/-- The broadcast with this sequence on this key was accepted. -/
def Exchange.Accepts (k : KeyId) (sequence : UInt64) (x : Exchange) : Prop :=
  ∃ p tx a, x = .answered (.call p (.broadcast tx)) (.ok a) ∧ a.code = 0 ∧ p.key = k ∧
    SignedWith sequence tx

namespace Provider

variable {p : Provider} {s waitSignal : Signal}

theorem mem_booking {fees : List Coin} {answer : Except BroadcastFailure BroadcastAnswer}
    {x : Exchange} (hx : x ∈ p.booking fees answer) :
    (∃ m, x = .answered (.record p m) ()) ∨ x = .answered (.spend p fees) () := by
  unfold booking at hx
  split at hx
  · simp only [List.mem_cons, List.not_mem_nil, or_false] at hx
    obtain rfl | rfl := hx
    · exact .inl ⟨_, rfl⟩
    · exact .inl ⟨_, rfl⟩
  · exact .inl ⟨_, List.mem_singleton.mp hx⟩
  · split at hx
    · exact .inl ⟨_, List.mem_singleton.mp hx⟩
    · simp only [List.mem_cons, List.not_mem_nil, or_false] at hx
      obtain rfl | rfl := hx
      · exact .inl ⟨_, rfl⟩
      · exact .inr rfl

theorem booking_delivers {fees : List Coin} {answer : Except BroadcastFailure BroadcastAnswer}
    {x : Exchange} (hx : x ∈ p.booking fees answer) :
    x.request.Delivers p ∧ x.broadcast? = none := by
  obtain ⟨m, rfl⟩ | rfl := mem_booking hx
  · exact ⟨rfl, rfl⟩
  · exact ⟨rfl, rfl⟩

theorem Broadcasts.delivers {tx : Bytes} {fees : List Coin} {h : List Exchange}
    {r : Except RelayError PendingTx} (hb : Broadcasts p tx fees s waitSignal h r) :
    ∀ x ∈ h, x.request.Delivers p := by
  intro x hx
  cases hb with
  | unsent hg =>
      obtain ⟨_, n, _, rfl | rfl⟩ := hg.request_error
      · obtain rfl := List.mem_singleton.mp hx
        trivial
      · simp only [List.mem_cons, List.not_mem_nil, or_false] at hx
        obtain rfl | rfl := hx
        · trivial
        · rfl
  | refused _ =>
      obtain rfl | rfl | hx := by simpa only [List.mem_cons] using hx
      · trivial
      · rfl
      · exact (booking_delivers hx).1
  | accepted _ =>
      obtain rfl | rfl | hx | rfl := by
        simpa only [List.mem_cons, List.mem_append, List.not_mem_nil, or_false] using hx
      · trivial
      · rfl
      · exact (booking_delivers hx).1
      · rfl

/-- After a look at the signal the transaction is sent, and then no other. -/
theorem Broadcasts.shape {tx : Bytes} {fees : List Coin} {h : List Exchange}
    {r : Except RelayError PendingTx} (hb : Broadcasts p tx fees s waitSignal h r) :
    (∃ n, h = [.stopped n .rest]) ∨ ∃ x t, h = .answered .rest () :: x :: t ∧
      x.request = .call p (.broadcast tx) ∧ ∀ y ∈ t, y.broadcast? = none := by
  cases hb with
  | unsent hg =>
      obtain ⟨_, n, _, rfl | rfl⟩ := hg.request_error
      · exact .inl ⟨n, rfl⟩
      · exact .inr ⟨_, [], rfl, rfl, by simp⟩
  | refused _ => exact .inr ⟨_, _, rfl, rfl, fun y hy => (booking_delivers hy).2⟩
  | accepted _ =>
      refine .inr ⟨_, _, rfl, rfl, fun y hy => ?_⟩
      obtain hy | hy := List.mem_append.mp hy
      · exact (booking_delivers hy).2
      · rw [List.mem_singleton.mp hy]
        rfl

/-- Every broadcast is of the given transaction, and there is one at most. -/
theorem Broadcasts.broadcast? {tx : Bytes} {fees : List Coin} {h : List Exchange}
    {r : Except RelayError PendingTx} (hb : Broadcasts p tx fees s waitSignal h r) :
    h.filterMap Exchange.broadcast? = [] ∨ h.filterMap Exchange.broadcast? = [tx] := by
  obtain ⟨n, rfl⟩ | ⟨x, t, rfl, hx, ht⟩ := hb.shape
  · exact .inl rfl
  · have hsent : x.broadcast? = some tx := by rw [Exchange.broadcast?, hx]
    right
    rw [List.filterMap_cons_none rfl, List.filterMap_cons_some hsent,
      List.filterMap_eq_nil_iff.mpr ht]

theorem build_holds {state st : SequenceState} {msgs : List Outgoing} {memo : String}
    {r : Except RelayError BuiltTx} {h : List Exchange}
    (hy : (p.build state msgs memo s).Yields h (st, r)) :
    (∀ x ∈ h, x.request.Holds p) ∧ h.filterMap Exchange.broadcast? = [] := by
  have hbuilds := Program.Yields.asks hy asks_build
  exact ⟨fun x hx => (hbuilds x hx).holds,
    List.filterMap_eq_nil_iff.mpr fun x hx => (hbuilds x hx).broadcast?_eq_none⟩

theorem LockedRun.holds {state st : SequenceState} {msgs : List Outgoing} {memo : String}
    {h : List Exchange} {r : Except RelayError PendingTx}
    (hl : LockedRun p state msgs memo s waitSignal h st r) : ∀ x ∈ h, x.request.Holds p := by
  intro x hx
  cases hl with
  | unbuilt hbuild => exact (build_holds hbuild).1 x hx
  | failed hbuild hsend =>
      obtain hx | hx := List.mem_append.mp hx
      · exact (build_holds hbuild).1 x hx
      · exact (hsend.delivers x hx).holds
  | accepted hbuild hsend =>
      obtain hx | hx := List.mem_append.mp hx
      · exact (build_holds hbuild).1 x hx
      · exact (hsend.delivers x hx).holds

/-- What a submission broadcasts is what it built. -/
theorem LockedRun.exists_built {state st : SequenceState} {msgs : List Outgoing} {memo : String}
    {h : List Exchange} {r : Except RelayError PendingTx} {tx : Bytes}
    (hl : LockedRun p state msgs memo s waitSignal h st r)
    (htx : tx ∈ h.filterMap Exchange.broadcast?) :
    h.filterMap Exchange.broadcast? = [tx] ∧
      ∃ (st₀ : SequenceState) (built : BuiltTx) (hb : List Exchange),
        (p.build state msgs memo s).Yields hb (st₀, .ok built) ∧ built.bytes = tx := by
  cases hl with
  | unbuilt hbuild => simp [(build_holds hbuild).2] at htx
  | failed hbuild hsend =>
      rw [List.filterMap_append, (build_holds hbuild).2, List.nil_append] at htx ⊢
      obtain hnone | hone := hsend.broadcast?
      · simp [hnone] at htx
      · rw [hone, List.mem_singleton] at htx
        exact ⟨by rw [hone, htx], _, _, _, hbuild, htx.symm⟩
  | accepted hbuild hsend =>
      rw [List.filterMap_append, (build_holds hbuild).2, List.nil_append] at htx ⊢
      obtain hnone | hone := hsend.broadcast?
      · simp [hnone] at htx
      · rw [hone, List.mem_singleton] at htx
        exact ⟨by rw [hone, htx], _, _, _, hbuild, htx.symm⟩

theorem Broadcasts.accepted_of_mem {tx tx' : Bytes} {fees : List Coin} {h : List Exchange}
    {r : Except RelayError PendingTx} (hb : Broadcasts p tx fees s waitSignal h r) {q : Provider}
    {a : BroadcastAnswer} (hx : .answered (.call q (.broadcast tx')) (.ok a) ∈ h)
    (hcode : a.code = 0) : q = p ∧ tx' = tx ∧ ∃ pending, r = .ok pending := by
  have hbooking (answer : Except BroadcastFailure BroadcastAnswer) :
      Exchange.answered (.call q (.broadcast tx')) (.ok a) ∉ p.booking fees answer := by
    intro hmem
    obtain ⟨m, hm⟩ | hm := mem_booking hmem <;> cases hm
  cases hb with
  | unsent hg =>
      obtain ⟨_, n, _, rfl | rfl⟩ := hg.request_error <;> simp at hx
  | @refused answer e hanswer =>
      simp only [List.mem_cons, hbooking, or_false, Exchange.answered.injEq, reduceCtorEq,
        false_and, false_or, Request.call.injEq, NodeCall.broadcast.injEq] at hx
      obtain ⟨⟨rfl, rfl⟩, hans⟩ := hx
      cases hans
      simp [rejection, hcode] at hanswer
  | @accepted a' job _ =>
      simp only [List.mem_cons, List.mem_append, hbooking, or_false, Exchange.answered.injEq,
        reduceCtorEq, false_and, false_or, Request.call.injEq, NodeCall.broadcast.injEq,
        List.not_mem_nil] at hx
      obtain ⟨⟨rfl, rfl⟩, _⟩ := hx
      exact ⟨rfl, rfl, _, rfl⟩

theorem Broadcasts.accepts {tx : Bytes} {fees : List Coin} {h : List Exchange}
    {r : Except RelayError PendingTx} (hb : Broadcasts p tx fees s waitSignal h r) {x : Exchange}
    (hx : x ∈ h) {k : KeyId} {n : UInt64} (hacc : x.Accepts k n) :
    p.key = k ∧ SignedWith n tx ∧ ∃ pending, r = .ok pending := by
  obtain ⟨q, tx', a, rfl, hcode, hkey, hsigned⟩ := hacc
  obtain ⟨rfl, rfl, hok⟩ := hb.accepted_of_mem hx hcode
  exact ⟨hkey, hsigned, hok⟩

theorem LockedRun.accepts {state st : SequenceState} {msgs : List Outgoing} {memo : String}
    {h : List Exchange} {r : Except RelayError PendingTx}
    (hl : LockedRun p state msgs memo s waitSignal h st r) {x : Exchange} (hx : x ∈ h) {k : KeyId}
    {n : UInt64} (hacc : x.Accepts k n) :
    p.key = k ∧ state.next ≤ n ∧ n + 1 ≤ st.next := by
  have hnot {st₀ : SequenceState} {x : Exchange} {y : Except RelayError BuiltTx}
      {hb : List Exchange} (hbuild : (p.build state msgs memo s).Yields hb (st₀, y))
      (hacc : x.Accepts k n) : x ∉ hb := by
    obtain ⟨q, tx, a, rfl, _⟩ := hacc
    intro hmem
    exact Program.Yields.asks hbuild asks_build _ hmem
  cases hl with
  | unbuilt hbuild => exact absurd hx (hnot hbuild hacc)
  | failed hbuild hsend =>
      obtain hx | hx := List.mem_append.mp hx
      · exact absurd hx (hnot hbuild hacc)
      · obtain ⟨_, _, pending, hr⟩ := hsend.accepts hx hacc
        cases hr
  | @accepted hb hs st₀ built pending hbuild hsend =>
      obtain hx | hx := List.mem_append.mp hx
      · exact absurd hx (hnot hbuild hacc)
      · obtain ⟨hkey, hsigned, _⟩ := hsend.accepts hx hacc
        obtain ⟨hseq, hst, _⟩ := yields_build_ok hbuild
        obtain rfl := hsigned.unique hst
        refine ⟨hkey, le_next_of_yields_build hbuild, ?_⟩
        rw [hseq]
        exact SequenceState.le_next_advance _ _

/-- The cache moves back only to the sequence that a mismatch names. -/
theorem LockedRun.next {state st : SequenceState} {msgs : List Outgoing} {memo : String}
    {h : List Exchange} {r : Except RelayError PendingTx}
    (hl : LockedRun p state msgs memo s waitSignal h st r) :
    state.next ≤ st.next ∨ ∃ e c, r = .error e ∧ e.isSequenceMismatch = true ∧
      SequenceState.expectedBy e = some c ∧ st.next = c := by
  have hfailure (st₀ : SequenceState) (e : RelayError) (hle : state.next ≤ st₀.next) :
      state.next ≤ (st₀.afterFailure e).next ∨ e.isSequenceMismatch = true ∧
        ∃ c, SequenceState.expectedBy e = some c ∧ (st₀.afterFailure e).next = c := by
    unfold SequenceState.afterFailure SequenceState.resync
    split
    · next hmismatch =>
      split
      · next c hc => exact .inr ⟨hmismatch, c, hc, rfl⟩
      · exact .inl hle
    · exact .inl hle
  cases hl with
  | @unbuilt _ st₀ e hbuild =>
      obtain hle | ⟨hmismatch, c, hc, hnext⟩ := hfailure st₀ e (le_next_of_yields_build hbuild)
      · exact .inl hle
      · exact .inr ⟨e, c, rfl, hmismatch, hc, hnext⟩
  | @failed _ _ st₀ built e hbuild _ =>
      obtain hle | ⟨hmismatch, c, hc, hnext⟩ := hfailure st₀ e (le_next_of_yields_build hbuild)
      · exact .inl hle
      · exact .inr ⟨e, c, rfl, hmismatch, hc, hnext⟩
  | accepted hbuild _ =>
      exact .inl (UInt64.le_trans (le_next_of_yields_build hbuild)
        (SequenceState.next_le_advance _ _))

theorem Broadcasts.of_append {tx tx' : Bytes} {fees : List Coin} {h h₁ h₂ hs : List Exchange}
    {x : Exchange} {r : Except RelayError PendingTx} (hb : Broadcasts p tx fees s waitSignal hs r)
    (hh : h.filterMap Exchange.broadcast? = []) (hx : x.broadcast? = some tx')
    (heq : h ++ hs = h₁ ++ x :: h₂) : h₁ = h ++ [.answered .rest ()] ∧ tx = tx' := by
  have hquiet := List.filterMap_eq_nil_iff.mp hh
  obtain ⟨n, rfl⟩ | ⟨y, t, rfl, hcall, ht⟩ := hb.shape
  · have hmem : x ∈ h ++ [.stopped n .rest] := by
      rw [heq]
      simp
    obtain hmem | hmem := List.mem_append.mp hmem
    · rw [hquiet x hmem] at hx
      cases hx
    · rw [List.mem_singleton.mp hmem] at hx
      cases hx
  · -- the broadcast is the only exchange of its kind, so its place is known
    have hsplit : h₁ ++ x :: h₂ = (h ++ [.answered .rest ()]) ++ y :: t := by
      rw [← heq]
      simp
    have hbefore : ∀ z ∈ h ++ [.answered .rest ()], ¬ z.broadcast? ≠ none := by
      intro z hz
      obtain hz | hz := List.mem_append.mp hz
      · exact not_not_intro (hquiet z hz)
      · rw [List.mem_singleton.mp hz]
        exact not_not_intro rfl
    have hsome : x.broadcast? ≠ none := by
      rw [hx]
      exact Option.some_ne_none tx'
    obtain ⟨rfl, rfl⟩ := append_cons_unique (P := fun z => z.broadcast? ≠ none) hsplit hsome hbefore
      fun z hz => not_not_intro (ht z hz)
    rw [Exchange.broadcast?, hcall] at hx
    exact ⟨rfl, Option.some.inj hx⟩

/-- A broadcast follows a build, and sends what was built. -/
theorem LockedRun.of_broadcast {state st : SequenceState} {msgs : List Outgoing} {memo : String}
    {h₁ h₂ : List Exchange} {x : Exchange} {r : Except RelayError PendingTx} {tx : Bytes}
    (hl : LockedRun p state msgs memo s waitSignal (h₁ ++ x :: h₂) st r)
    (hx : x.broadcast? = some tx) : ∃ h st₀ built, h₁ = h ++ [.answered .rest ()] ∧
      (p.build state msgs memo s).Yields h (st₀, .ok built) ∧ built.bytes = tx := by
  generalize hbody : h₁ ++ x :: h₂ = body at hl
  cases hl with
  | unbuilt hbuild =>
      have hmem : x ∈ body := by
        rw [← hbody]
        simp
      rw [List.filterMap_eq_nil_iff.mp (build_holds hbuild).2 x hmem] at hx
      cases hx
  | @failed hb hs st₀ built e hbuild hsend =>
      obtain ⟨rfl, htx⟩ := hsend.of_append (build_holds hbuild).2 hx hbody.symm
      exact ⟨hb, st₀, built, rfl, hbuild, htx⟩
  | @accepted hb hs st₀ built pending hbuild hsend =>
      obtain ⟨rfl, htx⟩ := hsend.of_append (build_holds hbuild).2 hx hbody.symm
      exact ⟨hb, st₀, built, rfl, hbuild, htx⟩

theorem SubmitRun.of_broadcast {msgs : List Outgoing} {memo : String} {h₁ h₂ : List Exchange}
    {x : Exchange} {r : Except RelayError PendingTx} {tx : Bytes}
    (hr : SubmitRun p msgs memo s waitSignal (h₁ ++ x :: h₂) r) (hx : x.broadcast? = some tx) :
    ∃ state h st built, h₁ = .answered .rest () :: .answered (.acquire p) state ::
        (h ++ [.answered .rest ()]) ∧
      (p.build state msgs memo s).Yields h (st, .ok built) ∧ built.bytes = tx := by
  generalize hfull : h₁ ++ x :: h₂ = full at hr
  cases hr with
  | waited hg =>
      have hmem : x ∈ full := by
        rw [← hfull]
        simp
      obtain ⟨_, n, _, rfl | rfl⟩ := hg.request_error
      · rw [List.mem_singleton.mp hmem] at hx
        cases hx
      · simp only [List.mem_cons, List.not_mem_nil, or_false] at hmem
        obtain rfl | rfl := hmem
        · cases hx
        · cases hx
  | @held body state st _ hl =>
      obtain rfl | ⟨rfl, _⟩ | ⟨g, rfl, hrest⟩ := append_cons_eq_cons_cons hfull
      · cases hx
      · cases hx
      obtain ⟨t, rfl⟩ | ⟨rfl, _, _⟩ := append_cons_eq_snoc hrest
      · obtain ⟨hb, st₀, built, rfl, hbuild, htx⟩ := hl.of_broadcast hx
        exact ⟨state, hb, st₀, built, rfl, hbuild, htx⟩
      · cases hx

/-- The lock is taken once, after a look at the signal. -/
theorem SubmitRun.of_acquire {msgs : List Outgoing} {memo : String} {h₁ h₂ : List Exchange}
    {q : Provider} {st : SequenceState} {r : Except RelayError PendingTx}
    (hr : SubmitRun p msgs memo s waitSignal (h₁ ++ .answered (.acquire q) st :: h₂) r) :
    q = p ∧ h₁ = [.answered .rest ()] := by
  generalize hfull : h₁ ++ .answered (.acquire q) st :: h₂ = full at hr
  cases hr with
  | waited hg =>
      have hmem : .answered (.acquire q) st ∈ full := by
        rw [← hfull]
        simp
      obtain ⟨_, n, _, rfl | rfl⟩ := hg.request_error <;> simp at hmem
  | @held body state st' _ hl =>
      obtain hx | ⟨hx, hbefore⟩ | ⟨g, _, hrest⟩ := append_cons_eq_cons_cons hfull
      · cases hx
      · cases hx
        exact ⟨rfl, hbefore⟩
      obtain ⟨t, rfl⟩ | ⟨hx, _, _⟩ := append_cons_eq_snoc hrest
      · exact (hl.holds (.answered (.acquire q) st) (by simp)).elim
      · cases hx

end Provider

end PacketRelay
