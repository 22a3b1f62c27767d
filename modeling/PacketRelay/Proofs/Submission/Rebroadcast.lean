import PacketRelay.Proofs.Confirmation
import PacketRelay.Proofs.Submission.Progress
import PacketRelay.Proofs.System.Joins

/-!
# The broadcasts of a send

A send broadcasts at most once in each attempt, and goes on to another attempt only if the answer
left the transaction's fate to a later one.  So it never broadcasts again after an acceptance or a
rejection for good.
-/

namespace PacketRelay

open Program

/-- The answer leaves room for a fresh attempt: the chain answered that its mempool is full or that
the sequence is wrong, or it refused nothing and the broadcast failed for a passing cause. -/
def Inconclusive (answer : Except BroadcastFailure BroadcastAnswer) : Prop :=
  (∃ a, (answer = .ok a ∨ ∃ error, answer = .error ⟨error, some a⟩) ∧ a.codespace = "sdk" ∧
    (a.code = 20 ∨ a.code = 32)) ∨
  ∃ failure, answer = .error failure ∧ (∀ a, failure.response = some a → a.code = 0) ∧
    failure.error.isRetryable = true

theorem inconclusive_of_rejection {answer : Except BroadcastFailure BroadcastAnswer}
    {e : RelayError} (hanswer : rejection answer = some e) (he : e.isRetryable = true) :
    Inconclusive answer := by
  cases answer with
  | ok a =>
      simp only [rejection] at hanswer
      split at hanswer
      · obtain rfl := Option.some.inj hanswer
        exact .inl ⟨a, .inl rfl, RelayError.isRetryable_ofTxCode_iff.mp he⟩
      · cases hanswer
  | error failure =>
      obtain ⟨error, response⟩ := failure
      cases response with
      | none =>
          obtain rfl := Option.some.inj hanswer
          refine .inr ⟨_, rfl, fun a ha => ?_, he⟩
          cases ha
      | some a =>
          obtain rfl := Option.some.inj hanswer
          by_cases hcode : a.code = 0
          · rw [if_neg (not_not_intro hcode)] at he
            refine .inr ⟨_, rfl, fun a' ha => ?_, he⟩
            rw [← Option.some.inj ha]
            exact hcode
          · rw [if_pos hcode] at he
            exact .inl ⟨a, .inr ⟨error, rfl⟩, RelayError.isRetryable_ofTxCode_iff.mp he⟩

theorem not_inconclusive_of_accepted {a : BroadcastAnswer} (hcode : a.code = 0) :
    ¬ Inconclusive (.ok a) := by
  rintro (⟨a', ha | ⟨error, ha⟩, _, hcode'⟩ | ⟨failure, ha, _⟩)
  · obtain rfl := Except.ok.inj ha
    rw [hcode] at hcode'
    revert hcode'
    decide
  · cases ha
  · cases ha

/-- The exchange is a broadcast whose answer leaves room for another one. -/
def Exchange.Inconclusive (x : Exchange) : Prop :=
  ∃ p tx answer, x = .answered (.call p (.broadcast tx)) answer ∧ PacketRelay.Inconclusive answer

/-- Every broadcast that another one follows was answered inconclusively. -/
def OnlyLastConcludes (h : List Exchange) : Prop :=
  h.Pairwise fun x y => x.broadcast?.isSome → y.broadcast?.isSome → x.Inconclusive

theorem onlyLastConcludes_of_length_le_one {h : List Exchange}
    (hlen : (h.filterMap Exchange.broadcast?).length ≤ 1) : OnlyLastConcludes h := by
  have hnever : (h.filterMap Exchange.broadcast?).Pairwise fun _ _ => False := by
    generalize h.filterMap Exchange.broadcast? = l at hlen
    match l, hlen with
    | [], _ => exact .nil
    | [_], _ => exact List.pairwise_singleton _ _
  refine (List.pairwise_filterMap.mp hnever).imp fun {x y} hxy hx hy => ?_
  obtain ⟨tx, htx⟩ := Option.isSome_iff_exists.mp hx
  obtain ⟨tx', htx'⟩ := Option.isSome_iff_exists.mp hy
  exact (hxy tx htx tx' htx').elim

theorem OnlyLastConcludes.append {h h' : List Exchange}
    (hh : ∀ x ∈ h, x.broadcast?.isSome → x.Inconclusive)
    (hlast : OnlyLastConcludes h') : OnlyLastConcludes (h ++ h') := by
  refine List.pairwise_append.mpr ⟨?_, hlast, fun x hx _ _ hxb _ => hh x hx hxb⟩
  exact List.pairwise_of_forall_mem_list fun x hx _ _ hxb _ => hh x hx hxb

namespace Provider

variable {p : Provider} {msgs : List Outgoing} {memo : String} {s waitSignal : Signal}
  {h : List Exchange}

/-- The transaction carries the messages and the memo of the call. -/
def CarriesCall (msgs : List Outgoing) (memo : String) (tx : Bytes) : Prop :=
  ∃ anys, msgs.mapM Outgoing.toAny = .ok anys ∧ Carries anys memo tx

theorem SubmitRun.carriesCall {r : Except RelayError PendingTx}
    (hr : SubmitRun p msgs memo s waitSignal h r) :
    ∀ tx ∈ h.filterMap Exchange.broadcast?, CarriesCall msgs memo tx := by
  intro tx htx
  cases hr with
  | waited hg =>
      obtain ⟨_, n, _, rfl | rfl⟩ := hg.request_error <;> cases htx
  | @held body state st _ hl =>
      have hbody : tx ∈ body.filterMap Exchange.broadcast? := by
        simpa [List.filterMap_cons, Exchange.broadcast?] using htx
      obtain ⟨_, st₀, built, hb, hbuild, rfl⟩ := hl.exists_built hbody
      obtain ⟨_, _, anys, hanys, hcarries⟩ := yields_build_ok hbuild
      exact ⟨anys, hanys, hcarries⟩

/-- A submission whose failure may be retried had no conclusive answer to its broadcast. -/
theorem SubmitRun.inconclusive {e : RelayError}
    (hr : SubmitRun p msgs memo s waitSignal h (.error e)) (he : e.isRetryable = true) :
    ∀ x ∈ h, x.broadcast?.isSome → x.Inconclusive := by
  intro x hx hxb
  have hbuilt {state st : SequenceState} {result : Except RelayError BuiltTx}
      {hb : List Exchange} (hbuild : (p.build state msgs memo s).Yields hb (st, result)) :
      x ∉ hb := by
    intro hmem
    rw [List.filterMap_eq_nil_iff.mp (build_holds hbuild).2 x hmem] at hxb
    cases hxb
  cases hr with
  | waited _ => cases he
  | @held body state st _ hl =>
      have hbody : x ∈ body := by
        simp only [List.mem_cons, List.mem_append, List.not_mem_nil, or_false] at hx
        obtain rfl | rfl | hx | rfl := hx
        · cases hxb
        · cases hxb
        · exact hx
        · cases hxb
      cases hl with
      | unbuilt hbuild => exact absurd hbody (hbuilt hbuild)
      | failed hbuild hsend =>
          obtain hmem | hmem := List.mem_append.mp hbody
          · exact absurd hmem (hbuilt hbuild)
          · cases hsend with
            | unsent _ => cases he
            | @refused answer _ hanswer =>
                obtain rfl | rfl | hbooked := by simpa only [List.mem_cons] using hmem
                · cases hxb
                · exact ⟨p, _, answer, rfl, inconclusive_of_rejection hanswer he⟩
                · rw [(booking_delivers hbooked).2] at hxb
                  cases hxb

/-- What an attempt of a send broadcasts, whether it is dropped on the way or not. -/
theorem guarded_submit {r : Except RelayError PendingTx}
    (hg : Attempt.Guarded s (p.submit msgs memo s waitSignal) h r) :
    (h.filterMap Exchange.broadcast?).length ≤ 1 ∧
      (∀ tx ∈ h.filterMap Exchange.broadcast?, CarriesCall msgs memo tx) ∧
      ∀ e, r = .error e → e.isRetryable = true →
        ∀ x ∈ h, x.broadcast?.isSome → x.Inconclusive := by
  cases hg with
  | fired _ =>
      refine ⟨Nat.zero_le 1, fun tx htx => ?_, fun e he hretry => ?_⟩
      · cases htx
      · cases he
        cases hretry
  | finished hsubmit =>
      have hrun := yields_submit hsubmit
      refine ⟨hrun.broadcast?_length_le, hrun.carriesCall, ?_⟩
      rintro e rfl hretry x hx hxb
      obtain rfl | hx := List.mem_cons.mp hx
      · cases hxb
      · exact hrun.inconclusive hretry x hx hxb
  | @dropped n h' q next _ hreach =>
      -- the dropped submission could have gone on to its end
      obtain ⟨a⟩ := q.nonempty_answer
      obtain ⟨h'', b, hrest⟩ := (next a).exists_yields
      have hrun := yields_submit (hreach.append (.step (.ask a) hrest))
      have hone : [Exchange.stopped n q].filterMap Exchange.broadcast? =
          [Exchange.answered q a].filterMap Exchange.broadcast? := rfl
      have hsub : (.answered .rest () :: (h' ++ [.stopped n q])).filterMap
          Exchange.broadcast? <+: (h' ++ .answered q a :: h'').filterMap Exchange.broadcast? := by
        refine ⟨h''.filterMap Exchange.broadcast?, ?_⟩
        rw [List.filterMap_cons_none rfl, List.filterMap_append, hone, ← List.filterMap_append,
          ← List.filterMap_append, List.append_assoc]
        rfl
      refine ⟨Nat.le_trans hsub.length_le hrun.broadcast?_length_le, fun tx htx =>
        hrun.carriesCall tx (hsub.subset htx), fun e he hretry => ?_⟩
      cases he
      cases hretry

/-- What a call has broadcast: no more often than `n` times, its messages and memo each time, and
again only after an inconclusive answer. -/
structure BroadcastsWithin (n : Nat) (msgs : List Outgoing) (memo : String) (h : List Exchange) :
    Prop where
  count : (h.filterMap Exchange.broadcast?).length ≤ n
  carries : ∀ tx ∈ h.filterMap Exchange.broadcast?, CarriesCall msgs memo tx
  concludes : OnlyLastConcludes h

theorem BroadcastsWithin.of_append {n : Nat} {h' : List Exchange}
    (hb : BroadcastsWithin n msgs memo (h ++ h')) : BroadcastsWithin n msgs memo h := by
  obtain ⟨hcount, hcarries, hconcludes⟩ := hb
  rw [List.filterMap_append] at hcount hcarries
  rw [List.length_append] at hcount
  refine ⟨by omega, fun tx htx => hcarries tx (List.mem_append_left _ htx), ?_⟩
  exact (List.pairwise_append.mp hconcludes).1

theorem BroadcastsWithin.snoc {n : Nat} {x : Exchange} (hb : BroadcastsWithin n msgs memo h)
    (hx : x.broadcast? = none) : BroadcastsWithin n msgs memo (h ++ [x]) := by
  have hsame : (h ++ [x]).filterMap Exchange.broadcast? = h.filterMap Exchange.broadcast? := by
    rw [List.filterMap_append, List.filterMap_cons_none hx]
    exact List.append_nil _
  refine ⟨hsame ▸ hb.count, hsame ▸ hb.carries, ?_⟩
  refine List.pairwise_append.mpr ⟨hb.concludes, List.pairwise_singleton _ _, ?_⟩
  intro y _ z hz _ hzb
  rw [List.mem_singleton.mp hz, hx] at hzb
  cases hzb

theorem announcement_broadcast? {scope : RetryScope} {n : Nat} {e : RelayError} :
    (RetryPolicy.announcement scope n e).filterMap Exchange.broadcast? = [] := by
  unfold RetryPolicy.announcement
  split <;> rfl

theorem attempt_broadcast? {n : Nat} {t : List Exchange}
    (ht : t.filterMap Exchange.broadcast? = []) :
    (.answered (.attempting n) () :: (h ++ t)).filterMap Exchange.broadcast? =
      h.filterMap Exchange.broadcast? := by
  rw [List.filterMap_cons_none rfl, List.filterMap_append, ht, List.append_nil]

theorem BroadcastsWithin.of_attempt {left n : Nat} {t : List Exchange}
    {r : Except RelayError PendingTx} (hg : Attempt.Guarded s (p.submit msgs memo s s) h r)
    (ht : t.filterMap Exchange.broadcast? = []) :
    BroadcastsWithin (left + 1) msgs memo (.answered (.attempting n) () :: (h ++ t)) := by
  obtain ⟨hlen, hcarries, _⟩ := guarded_submit hg
  have hsame := attempt_broadcast? (n := n) (h := h) ht
  refine ⟨?_, hsame.symm ▸ hcarries, onlyLastConcludes_of_length_le_one ?_⟩
  · rw [hsame]
    omega
  · rw [hsame]
    exact hlen

/-- An attempt that failed for a passing cause, and what follows it. -/
theorem BroadcastsWithin.after_attempt {left n : Nat} {t h' : List Exchange} {e : RelayError}
    (hg : Attempt.Guarded s (p.submit msgs memo s s) h (.error e)) (he : e.isRetryable = true)
    (ht : t.filterMap Exchange.broadcast? = []) (hb : BroadcastsWithin (left + 1) msgs memo h') :
    BroadcastsWithin (left + 1 + 1) msgs memo
      ((.answered (.attempting n) () :: (h ++ t)) ++ h') := by
  obtain ⟨hlen, hcarries, hinconclusive⟩ := guarded_submit hg
  have hsame := attempt_broadcast? (n := n) (h := h) ht
  refine ⟨?_, ?_, .append ?_ hb.concludes⟩
  · have hcount := hb.count
    rw [List.filterMap_append, hsame, List.length_append]
    omega
  · intro tx htx
    rw [List.filterMap_append, hsame] at htx
    exact (List.mem_append.mp htx).elim (hcarries tx) (hb.carries tx)
  · intro x hx hxb
    rcases List.mem_cons.mp hx with rfl | hx'
    · cases hxb
    rcases List.mem_append.mp hx' with hfirst | hlater
    · exact hinconclusive e rfl he x hfirst hxb
    · rw [List.filterMap_eq_nil_iff.mp ht x hlater] at hxb
      cases hxb

/-- A loop of submissions broadcasts within the attempts that are left. -/
theorem rounds_broadcastsWithin {left n : Nat} {history : List String}
    {r : Except RelayError PendingTx}
    (hr : RetryPolicy.Rounds p.config.retry .submission s (fun _ => p.submit msgs memo s s) left n
      history h r) : BroadcastsWithin (left + 1) msgs memo h := by
  induction hr with
  | succeeded hg => simpa using BroadcastsWithin.of_attempt (t := []) hg rfl
  | failed hg _ => simpa using BroadcastsWithin.of_attempt (t := []) hg rfl
  | exhausted hg _ => simpa using BroadcastsWithin.of_attempt (t := []) hg rfl
  | interrupted hg _ hp =>
      refine .of_attempt hg ?_
      rw [List.filterMap_append, announcement_broadcast?]
      obtain ⟨_, n, _, rfl | rfl⟩ := hp.request_error <;> rfl
  | @again left n history h h' e r hg hfinal _ ih =>
      have he : e.isRetryable = true := by
        simpa [RetryScope.isFinal] using hfinal
      let pause : List Exchange :=
        [.answered .rest (), .answered (.pause p.config.retry.delay.millis) ()]
      have hwait : (RetryPolicy.announcement .submission n e ++ pause).filterMap
          Exchange.broadcast? = [] := by
        rw [List.filterMap_append, announcement_broadcast?]
        rfl
      simpa [pause] using BroadcastsWithin.after_attempt hg he hwait ih

/-- A send broadcasts within its attempts. -/
theorem SendRun.broadcastsWithin {r : Except RelayError TxResponse}
    (hr : SendRun p msgs memo s h r) :
    BroadcastsWithin (max 1 p.config.retry.maxAttempts) msgs memo h := by
  have hrounds {h : List Exchange} {r : Except RelayError PendingTx}
      (hr : SendRounds p msgs memo s h r) :
      BroadcastsWithin (max 1 p.config.retry.maxAttempts) msgs memo h := by
    have hattempts : p.config.retry.attempts - 1 + 1 = max 1 p.config.retry.maxAttempts := by
      rw [RetryPolicy.attempts]
      omega
    exact hattempts ▸ rounds_broadcastsWithin hr
  cases hr with
  | unsubmitted hr => exact hrounds hr
  | unconfirmed hr => exact (hrounds hr).snoc rfl
  | confirmed hr _ => exact (hrounds hr).snoc rfl

/-- Where a send was accepted and left the job that waits for its transaction. -/
theorem SendRounds.exists_accepted {pending : PendingTx}
    (hr : SendRounds p msgs memo s h (.ok pending)) : ∃ l₁ tx a l₂ l₃, a.code = 0 ∧
      h = (l₁ ++ .answered (.call p (.broadcast tx)) (.ok a) :: l₂) ++
        .answered (.spawn p (.confirm (a.lookupHash tx) s)) pending.job :: l₃ := by
  obtain ⟨_, h₁, h₂, rfl, hsubmit⟩ := RetryPolicy.Rounds.exists_yields hr
  cases yields_submit hsubmit with
  | @held body state st _ hl =>
      cases hl with
      | @accepted hb _ st₀ built pending' _ hsend =>
          cases hsend with
          | @accepted a job hcode =>
              exact ⟨h₁ ++ (.answered .rest () :: .answered (.acquire p) state ::
                (hb ++ [.answered .rest ()])), built.bytes, a, p.booking built.fees (.ok a),
                [.answered (.release p (st₀.advance (built.sequence + 1))) ()], hcode, by simp⟩

theorem SendRun.exists_confirmed {response : TxResponse}
    (hr : SendRun p msgs memo s h (.ok response)) : ∃ l pending, SendRounds p msgs memo s l
      (.ok pending) ∧ response.code = 0 ∧
      h = l ++ [.answered (.join pending.job) (.confirmed response)] := by
  cases hr with
  | confirmed hrounds hcode => exact ⟨_, _, hrounds, hcode, rfl⟩

end Provider

namespace System

/-- The first submission of a send can be brought to its acceptance. -/
theorem exists_accepted_send {expected : UInt64} {anys : List Any} {p : Provider}
    {msgs : List Outgoing} {caches : KeyId → SequenceState}
    (hexpected : expected.toNat + 1 < UInt64.size) (hanys : msgs.mapM Outgoing.toAny = .ok anys)
    (hmode : p.config.signMode = .direct) (hcache : (caches p.key).next = expected)
    (calls : Nat → Program (Except RelayError TxResponse)) (i : Nat) (memo : String) (s : Signal) :
    ∃ h σ x, Run (start caches (Function.update calls i (p.send msgs memo s).run)) h σ ∧
      x ∈ own (.call i) h ∧ x.Accepts p.key expected := by
  obtain ⟨h₁, x, h₂, j, st, r, hy, haccepts, _, hbody⟩ :=
    Provider.exists_accepted_history hexpected hanys hmode hcache memo s s 0
  have hparts : .answered .rest () :: .answered (.acquire p) (caches p.key) :: ((h₁ ++ x :: h₂) ++
      [.answered (.spawn p j) 0, .answered (.release p st) ()]) =
      (.answered .rest () :: .answered (.acquire p) (caches p.key) :: (h₁ ++ [x])) ++
        (h₂ ++ [.answered (.spawn p j) 0, .answered (.release p st) ()]) := by simp
  rw [hparts] at hy
  obtain ⟨q, hsubmit, _⟩ := reaches_append_iff.mp hy
  have hplain : ∀ y ∈ h₁ ++ [x], y.request.Plain ∧ p.Obeys expected y := by
    intro y hmem
    refine hbody y ?_
    obtain hmem | hmem := List.mem_append.mp hmem
    · exact List.mem_append_left _ hmem
    · exact List.mem_append_right _ (List.mem_singleton.mp hmem ▸ List.mem_cons_self)
  have hanswers : ∀ y ∈ Exchange.answered .rest () ::
      .answered (.acquire p) (caches p.key) :: (h₁ ++ [x]), y.IsAnswer := by
    refine List.forall_mem_cons.mpr ⟨trivial, List.forall_mem_cons.mpr ⟨trivial, ?_⟩⟩
    exact fun y hmem => Provider.Obeys.isAnswer y (hplain y hmem).2
  obtain ⟨q₁, hloop⟩ : ∃ q, (p.config.retry.submission s (p.submit msgs memo s s)).run.Reaches
      (.answered (.attempting 1) () :: .answered .rest () :: .answered .rest () ::
        .answered (.acquire p) (caches p.key) :: (h₁ ++ [x])) q :=
    RetryPolicy.exists_reaches_run hsubmit hanswers
  obtain ⟨q₂, hsend⟩ : ∃ q, (p.send msgs memo s).run.Reaches (.answered (.attempting 1) () ::
      .answered .rest () :: .answered .rest () :: .answered (.acquire p) (caches p.key) ::
        (h₁ ++ [x])) q := Attempt.exists_reaches_bind hloop _
  have hcall : (start caches (Function.update calls i (p.send msgs memo s).run)).calls i =
      (p.send msgs memo s).run := Function.update_self _ _ _
  rw [← hcall] at hsend
  refine ⟨_, _, x, Run.of_reaches hsend ⟨trivial, trivial, trivial, ⟨rfl, rfl⟩, ?_⟩,
    mem_own.mpr (by simp), haccepts⟩
  rw [← List.append_nil (h₁ ++ [x]),
    (allowsAll_plain_append_iff fun y hmem => (hplain y hmem).1).1]
  trivial

/-- However a send goes, and wherever it stands, it has broadcast at most once for each attempt, its
messages and memo each time, and only what was answered inconclusively was followed by another
broadcast.  It succeeds only after the job that an accepted broadcast left found the transaction in
a block with code zero. -/
theorem send_broadcasts_until_conclusive (caches : KeyId → SequenceState)
    (calls : Nat → Program (Except RelayError TxResponse)) (i : Nat) (p : Provider)
    (msgs : List Outgoing) (memo : String) (s : Signal) {h : List (Agent × Exchange)}
    {σ : System (Except RelayError TxResponse)}
    (hr : Run (start caches (Function.update calls i (p.send msgs memo s).run)) h σ) :
    ((own (.call i) h).filterMap Exchange.broadcast?).length ≤
        max 1 p.config.retry.maxAttempts ∧
      (∀ l₁ q tx a l₂, own (.call i) h = l₁ ++ .answered (.call q (.broadcast tx)) (.ok a) :: l₂ →
        a.code = 0 → ∀ y ∈ l₂, y.broadcast? = none) ∧
      (∀ l₁ x l₂, own (.call i) h = l₁ ++ x :: l₂ → x.broadcast?.isSome →
        (∃ y ∈ l₂, y.broadcast?.isSome) → x.Inconclusive) ∧
      (∀ tx ∈ (own (.call i) h).filterMap Exchange.broadcast?,
        Provider.CarriesCall msgs memo tx) ∧
      ∀ response, σ.calls i = .done (.ok response) → response.code = 0 ∧
        ∃ g₁ tx a g₂ n r, h =
            g₁ ++ (.call i, .answered (.call p (.broadcast tx)) (.ok a)) :: g₂ ∧ a.code = 0 ∧
          (.job n, .answered (.call p (.tx (a.lookupHash tx))) (.ok (some r))) ∈ g₂ ∧
          r.code = 0 ∧ response = .ofResult r := by
  have hreach : (p.send msgs memo s).run.Reaches (own (.call i) h) (σ.calls i) := by
    simpa [start] using hr.reaches i
  obtain ⟨h', r, hy⟩ := hreach.exists_yields
  obtain ⟨hcount, hcarries, hconcludes⟩ := (Provider.yields_send hy).broadcastsWithin.of_append
  have hfollowed (l₁ : List Exchange) (x : Exchange) (l₂ : List Exchange)
      (heq : own (.call i) h = l₁ ++ x :: l₂) (hx : x.broadcast?.isSome)
      (hy : ∃ y ∈ l₂, y.broadcast?.isSome) : x.Inconclusive := by
    obtain ⟨y, hmem, hyb⟩ := hy
    rw [heq] at hconcludes
    exact (List.pairwise_cons.mp (List.pairwise_append.mp hconcludes).2.1).1 y hmem hx hyb
  refine ⟨hcount, ?_, hfollowed, hcarries, ?_⟩
  · intro l₁ q tx a l₂ heq hcode y hmem
    by_contra hyb
    obtain ⟨_, _, answer, hx, hinconclusive⟩ :=
      hfollowed l₁ _ l₂ heq rfl ⟨y, hmem, Option.isSome_iff_ne_none.mpr hyb⟩
    cases hx
    exact not_inconclusive_of_accepted hcode hinconclusive
  · intro response hdone
    rw [hdone] at hreach
    obtain ⟨l, pending, hrounds, hcode, hown⟩ := (Provider.yields_send hreach).exists_confirmed
    obtain ⟨l₁, tx, a, l₂, l₃, hzero, rfl⟩ := hrounds.exists_accepted
    rw [List.append_assoc] at hown
    obtain ⟨g₁, g₂, g₃, rfl, hg₁, hjob⟩ := hr.joins hown
    obtain ⟨e₁, e₂, rfl, _, _⟩ := own_eq_append hg₁
    obtain ⟨e₃, c, e₄, hsplit, hconfirm, hc⟩ := Program.yields_bind_iff.mp hjob
    obtain ⟨_, hc⟩ := Program.yields_done_iff.mp hc
    obtain rfl := Option.some.inj hc
    obtain ⟨r, hmem, hcode', hresponse⟩ := Provider.yields_confirm hconfirm
    have hlookup : (.job pending.job, .answered (.call p (.tx (a.lookupHash tx))) (.ok (some r))) ∈
        g₂ := by
      rw [← mem_own, hsplit]
      exact List.mem_append_left _ hmem
    exact ⟨hcode, e₁, tx, a, _, pending.job, r, List.append_assoc _ _ _, hzero, by simp [hlookup],
      hcode', hresponse⟩

theorem send_broadcasts_until_conclusive_accepted : ∃ h σ l₁ x l₂,
    Run (start (fun _ => ⟨3, 0⟩) (Function.update (fun _ => .done (.error .cancelled)) 0
      (Provider.twice.send [] "" none).run)) h σ ∧
      own (.call 0) h = l₁ ++ x :: l₂ ∧ x.Accepts Provider.twice.key 3 ∧
      ∀ y ∈ l₂, y.broadcast? = none := by
  obtain ⟨h, σ, x, hr, hmem, haccepts⟩ := @exists_accepted_send 3 [] .twice [] (fun _ => ⟨3, 0⟩)
    (by decide) rfl rfl rfl (fun _ => .done (.error .cancelled)) 0 "" none
  obtain ⟨l₁, l₂, heq⟩ := List.append_of_mem hmem
  refine ⟨h, σ, l₁, x, l₂, hr, heq, haccepts, ?_⟩
  obtain ⟨q, tx, a, rfl, hcode, _⟩ := haccepts
  exact (send_broadcasts_until_conclusive _ _ 0 .twice [] "" none hr).2.1 l₁ q tx a l₂ heq hcode

end System

end PacketRelay
