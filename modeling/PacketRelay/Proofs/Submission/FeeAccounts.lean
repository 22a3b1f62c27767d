import PacketRelay.Proofs.Metrics.Books
import PacketRelay.Proofs.Submission.Balance
import PacketRelay.Proofs.Submission.MempoolCalls
import PacketRelay.Proofs.Submission.Outcome
import PacketRelay.Proofs.Submission.Sending
import PacketRelay.Proofs.System.Lifting

/-!
# The fees that a provider paid

A provider that exports metrics keeps totals.  They add up, in any order, the fees of the broadcasts
that the mempool accepted and the fees that were handed in directly, and nothing else.
-/

namespace PacketRelay

open Program

/-- A call that pays fees if it succeeds. -/
inductive PayingCall where
  | mempool (c : MempoolCall)
  /-- Submits, with retries, and waits for the transaction. -/
  | send (p : Provider) (msgs : List Outgoing) (memo : String) (s : Signal)
  /-- Broadcasts a transaction that was signed before. -/
  | broadcast (p : Provider) (tx : Bytes) (fees : List Coin) (s waitSignal : Signal)
  /-- Adds fees to the totals without a transaction. -/
  | pay (p : Provider) (fees : List Coin)

namespace PayingCall

def provider : PayingCall → Provider
  | .mempool c => c.submission.provider
  | .send p .. | .broadcast p .. | .pay p _ => p

/-- What a call does; callers are told by the number of their call. -/
def program (i : Nat) : PayingCall → Program (Except RelayError Unit)
  | .mempool c => c.program i
  | .send p msgs memo s => do return (← (p.send msgs memo s).run).map fun _ => ()
  | .broadcast p tx fees s waitSignal => do
    return (← (p.broadcast tx fees s waitSignal).run).map fun _ => ()
  | .pay p fees => do
    Program.request (.spend p fees)
    return .ok ()

end PayingCall

/-- The fees that a signed transaction offers, which its bytes determine. -/
noncomputable def feesOf (tx : Bytes) : List Coin :=
  open Classical in if h : ∃ fees, Pays fees tx then h.choose else []

theorem Pays.eq_feesOf {fees : List Coin} {tx : Bytes} (h : Pays fees tx) : fees = feesOf tx := by
  have hsome : ∃ fees, Pays fees tx := ⟨fees, h⟩
  rw [feesOf, dif_pos hsome]
  exact h.unique hsome.choose_spec

/-- The fees of a broadcast of one of the providers that the mempool accepted; `fees` tells the fees
of a transaction. -/
def Exchange.paid (among : Provider → Bool) (fees : Bytes → List Coin) : Exchange → Multiset Coin
  | .answered (.call p (.broadcast tx)) (.ok a) => if among p && a.code = 0 then fees tx else 0
  | _ => 0

theorem Exchange.paid_of_not_isAcceptance (among : Provider → Bool) (fees : Bytes → List Coin)
    {x : Exchange} (hx : ¬ x.IsAcceptance) : x.paid among fees = 0 := by
  unfold paid
  split
  · refine if_neg fun hcode => hx ?_
    simp only [Bool.and_eq_true, decide_eq_true_eq] at hcode
    exact hcode.2
  · rfl

/-- An accepted broadcast is worth the fees that are spent for it. -/
theorem worth_paid (among : Provider → Bool) (fees : Bytes → List Coin) :
    Worth (fun offered tx => offered = fees tx) (Exchange.paid among fees)
      (Request.fees among) where
  answered {p tx offered waitSignal answer} hoffered := by
    subst hoffered
    cases answer with
    | error failure => simp [Exchange.paid, Provider.dues, Request.fees]
    | ok a =>
        by_cases hcode : a.code = 0 <;>
          simp [Exchange.paid, Provider.dues, Request.fees, hcode]
  stopped n r := rfl
  other {r a} hr := by
    unfold Exchange.paid
    split
    · next p tx a heq =>
      cases heq
      exact absurd rfl (hr p tx)
    · rfl
  weight {r} hr := by
    cases r with
    | spend p fees => exact absurd trivial hr
    | _ => rfl

namespace PayingCall

noncomputable def offers : PayingCall → Bytes → List Coin
  | .broadcast _ _ fees _ _, _ => fees
  | _, tx => feesOf tx

/-- The fees that an exchange of a call pays in the name of one of the providers. -/
noncomputable def paid (among : Provider → Bool) : PayingCall → Exchange → Multiset Coin
  | .pay .. => Exchange.amount (Request.fees among)
  | c => Exchange.paid among c.offers

/-- A call that does more than to hand in fees books what it broadcasts. -/
theorem follows_program (i : Nat) {c : PayingCall} (hc : ¬ ∃ p fees, c = .pay p fees) :
    (∀ among, c.paid among = Exchange.paid among c.offers) ∧
      Follows (Bookkeeping fun offered tx => offered = c.offers tx) Exchange.Timely
        (fun owed _ => owed = []) [] (c.program i) := by
  have hoffers : ∀ fees tx, Pays fees tx → fees = feesOf tx := fun _ _ => Pays.eq_feesOf
  cases c with
  | mempool c => exact ⟨fun _ => rfl, c.follows_program hoffers⟩
  | send p msgs memo s =>
      exact ⟨fun _ => rfl, (Provider.follows_send hoffers).bind fun _ _ howed => howed⟩
  | broadcast p tx fees s waitSignal =>
      exact ⟨fun _ => rfl, (Provider.follows_broadcast rfl).bind fun _ _ howed => howed⟩
  | pay p fees => exact absurd ⟨p, fees, rfl⟩ hc

end PayingCall

namespace Provider

variable {p : Provider} {s waitSignal : Signal} {msgs : List Outgoing} {memo : String}
  {h : List Exchange} {e : RelayError}

theorem Broadcasts.not_isAcceptance {tx : Bytes} {fees : List Coin}
    (hb : Broadcasts p tx fees s waitSignal h (.error e)) : ∀ x ∈ h, ¬ x.IsAcceptance := by
  intro x hx hacc
  obtain ⟨q, tx', a, rfl, hcode⟩ := hacc.exists_eq
  obtain ⟨_, _, _, hok⟩ := hb.accepted_of_mem hx hcode
  cases hok

theorem SubmitRun.not_isAcceptance (hr : SubmitRun p msgs memo s waitSignal h (.error e)) :
    ∀ x ∈ h, ¬ x.IsAcceptance := by
  intro x hx
  cases hr with
  | waited hg =>
      obtain ⟨_, n, _, rfl | rfl⟩ := hg.request_error
      · rw [List.mem_singleton.mp hx]
        exact not_false
      · simp only [List.mem_cons, List.not_mem_nil, or_false] at hx
        obtain rfl | rfl := hx
        · exact not_false
        · exact not_false
  | held hl =>
      simp only [List.mem_cons, List.mem_append, List.not_mem_nil, or_false] at hx
      obtain rfl | rfl | hx | rfl := hx
      · exact not_false
      · exact not_false
      · exact hl.settles.1 x hx
      · exact not_false

def acceptedHistory (p : Provider) (tx : Bytes) (fees : List Coin) (waitSignal : Signal)
    (a : BroadcastAnswer) (job : Nat) : List Exchange :=
  [.answered .rest (), .answered (.call p (.broadcast tx)) (.ok a),
    .answered (.record p (.broadcast true)) (), .answered (.spend p fees) (),
    .answered (.spawn p (.confirm (a.lookupHash tx) waitSignal)) job]

theorem yields_broadcast_of_accepted {tx : Bytes} {fees : List Coin} {a : BroadcastAnswer}
    (hcode : a.code = 0) (job : Nat) : (p.broadcast tx fees s waitSignal).run.Yields
      (p.acceptedHistory tx fees waitSignal a job) (.ok ⟨a.lookupHash tx, 0, job⟩) := by
  have hsend : (Attempt.guard s (Attempt.request (.call p (.broadcast tx)))).run.Yields
      [.answered .rest (), .answered (.call p (.broadcast tx)) (.ok a)] (.ok (.ok a)) :=
    Attempt.yields_guard_request s (.call p (.broadcast tx)) (.ok a)
  have hjudge : (p.judgeBroadcast tx fees (.ok a)).run.Yields
      [.answered (.record p (.broadcast true)) (), .answered (.spend p fees) ()]
      (.ok (a.lookupHash tx)) := by
    simp only [judgeBroadcast, if_neg (not_not_intro hcode)]
    exact Attempt.yields_request_bind_iff.mpr ⟨(), _, rfl, Attempt.yields_request_bind_iff.mpr
      ⟨(), _, rfl, Attempt.yields_pure_iff.mpr ⟨rfl, rfl⟩⟩⟩
  refine Attempt.yields_bind_ok_iff.mpr ⟨_, _, _, rfl, hsend, ?_⟩
  refine Attempt.yields_bind_ok_iff.mpr ⟨_, _, _, rfl, hjudge, ?_⟩
  exact Attempt.yields_request_bind_iff.mpr ⟨job, _, rfl, Attempt.yields_pure_iff.mpr ⟨rfl, rfl⟩⟩

/-- A loop of submissions that failed was never accepted. -/
theorem rounds_not_isAcceptance {left n : Nat} {history : List String}
    {r : Except RelayError PendingTx}
    (hr : RetryPolicy.Rounds p.config.retry .submission s (fun _ => p.submit msgs memo s s) left n
      history h r) (hh : ∀ x ∈ h, x.Timely) (he : r = .error e) : ∀ x ∈ h, ¬ x.IsAcceptance := by
  have hattempt {h : List Exchange} {e : RelayError} {n : Nat}
      (hg : Attempt.Guarded s (p.submit msgs memo s s) h (.error e)) (hh : ∀ x ∈ h, x.Timely) :
      ∀ x ∈ .answered (.attempting n) () :: h, ¬ x.IsAcceptance := by
    refine List.forall_mem_cons.mpr ⟨not_false, ?_⟩
    -- A signal stops the attempt before it begins, or the attempt runs to its own end.
    obtain ⟨n, rfl, _⟩ | ⟨h', rfl, hy⟩ :=
      hg.timely cancelsBefore_submit.cancels.heeds.vigilant hh
    · simp [Exchange.IsAcceptance]
    · exact List.forall_mem_cons.mpr ⟨not_false, (yields_submit hy).not_isAcceptance⟩
  have hannounced (n : Nat) (e : RelayError) :
      ∀ x ∈ RetryPolicy.announcement .submission n e, ¬ x.IsAcceptance := by
    simp [RetryPolicy.announcement, Exchange.IsAcceptance]
  induction hr with
  | succeeded _ => cases he
  | failed hg _ => exact hattempt hg fun x hx => hh x (by simp [hx])
  | exhausted hg _ => exact hattempt hg fun x hx => hh x (by simp [hx])
  | @interrupted left n _ h hp e' hg _ hpause =>
      rw [← List.cons_append]
      refine List.forall_mem_append.mpr ⟨hattempt hg fun x hx => hh x (by simp [hx]), ?_⟩
      refine List.forall_mem_append.mpr ⟨hannounced n e', ?_⟩
      obtain ⟨_, n, _, rfl | rfl⟩ := hpause.request_error <;> simp [Exchange.IsAcceptance]
  | @again left n _ h h' e' r hg _ _ ih =>
      rw [← List.cons_append]
      refine List.forall_mem_append.mpr ⟨hattempt hg fun x hx => hh x (by simp [hx]), ?_⟩
      refine List.forall_mem_append.mpr ⟨hannounced n e', ?_⟩
      refine List.forall_mem_cons.mpr ⟨not_false, List.forall_mem_cons.mpr ⟨not_false, ?_⟩⟩
      exact ih (fun x hx => hh x (by simp [hx])) he

end Provider

namespace PayingCall

theorem yields_error_of_map {α : Type} {p : Program (Except RelayError α)} {h : List Exchange}
    {e : RelayError}
    (hy : (do return (← p).map fun _ => () : Program (Except RelayError Unit)).Yields h (.error e)) :
    p.Yields h (.error e) := by
  obtain ⟨h₁, r, h₂, rfl, hp, hdone⟩ := yields_bind_iff.mp hy
  obtain ⟨rfl, hr⟩ := yields_done_iff.mp hdone
  cases r with
  | ok a => cases hr
  | error e' =>
      cases hr
      rw [List.append_nil]
      exact hp

/-- A call that failed, a send before it waited for its transaction, paid nothing. -/
theorem paid_of_error {i : Nat} {c : PayingCall} {h : List Exchange} {e : RelayError}
    (hy : (c.program i).Yields h (.error e)) (hh : ∀ x ∈ h, x.Timely)
    (hsend : ∀ p msgs memo s, c = .send p msgs memo s → ∀ x ∈ h, ∀ n, x.request ≠ .join n)
    (among : Provider → Bool) : ∀ x ∈ h, c.paid among x = 0 := by
  have hpaid {fees : Bytes → List Coin} (hnone : ∀ x ∈ h, ¬ x.IsAcceptance) :
      ∀ x ∈ h, x.paid among fees = 0 := fun x hx =>
    Exchange.paid_of_not_isAcceptance among fees (hnone x hx)
  cases c with
  | mempool c =>
      refine hpaid ?_
      cases c with
      | submit c => exact (Provider.yields_submit (yields_error_of_map hy)).not_isAcceptance
      | report c =>
          obtain ⟨g, outcome, n, rfl, hsubmit, hr⟩ := Provider.yields_submitReporting hy
          cases outcome with
          | ok pending => cases hr
          | error e' =>
              refine List.forall_mem_append.mpr ⟨?_, by simp [Exchange.IsAcceptance]⟩
              exact (Provider.yields_submit hsubmit).not_isAcceptance
  | send p msgs memo s =>
      refine hpaid ?_
      cases Provider.yields_send (yields_error_of_map hy) with
      | unsubmitted hr => exact Provider.rounds_not_isAcceptance hr hh rfl
      | @unconfirmed h pending confirmation _ hr =>
          exact absurd rfl (hsend p msgs memo s rfl
            (.answered (.join pending.job) confirmation) (by simp) pending.job)
  | broadcast p tx fees s waitSignal =>
      exact hpaid (Provider.yields_broadcast (yields_error_of_map hy)).not_isAcceptance
  | pay p fees =>
      obtain ⟨_, _, _, _, _, hdone⟩ := yields_bind_iff.mp hy
      cases (yields_done_iff.mp hdone).2

end PayingCall

namespace System

variable {caches : KeyId → SequenceState} {calls : Nat → PayingCall}
  {τ : System (Except RelayError Unit)} {h : List (Agent × Exchange)}

/-- The fees that an agent's exchange pays; jobs pay none. -/
noncomputable def pays (calls : Nat → PayingCall) (among : Provider → Bool) :
    Agent → Exchange → Multiset Coin
  | .call i => (calls i).paid among
  | .job _ => fun _ => 0

/-- The fees that were paid in a run in the name of one of the providers. -/
noncomputable def paid (calls : Nat → PayingCall) (among : Provider → Bool)
    (h : List (Agent × Exchange)) : Multiset Coin := tally (pays calls among) h

/-- What was paid in a run is what was spent. -/
theorem Run.paid_eq_spent (hr : Run (start caches fun i => (calls i).program i) h τ)
    (htimely : ∀ e ∈ h, e.2.Timely)
    (hsettled : ∀ i, (∃ p fees, calls i = .pay p fees) ∨ (τ.calls i).Settled)
    (among : Provider → Bool) :
    paid calls among h = spent among h := by
  refine hr.balance (fun i => ?_) fun _ _ hx => ⟨rfl, ((worth_paid among feesOf).aside hx).2⟩
  have hown : ∀ x ∈ own (.call i) h, x.Timely := fun x hx => htimely _ (mem_own.mp hx)
  by_cases hpay : ∃ p fees, calls i = .pay p fees
  · obtain ⟨p, fees, hc⟩ := hpay
    rw [pays, hc]
    rfl
  · obtain ⟨hpaid, hfollows⟩ := PayingCall.follows_program i hpay
    rw [pays, hpaid]
    exact (hr.reaches i).balance hown hfollows ((hsettled i).resolve_left hpay) (worth_paid among _)

theorem Run.of_accepted_broadcast {σ : System (Except RelayError Unit)} {i : Nat} {p : Provider}
    {tx : Bytes} {fees : List Coin} {s waitSignal : Signal} {a : BroadcastAnswer}
    (hcall : σ.calls i = (PayingCall.broadcast p tx fees s waitSignal).program i)
    (hcode : a.code = 0) :
    Run σ ((p.acceptedHistory tx fees waitSignal a σ.jobs.length).map fun x => (.call i, x))
      { σ with
        calls := Function.update σ.calls i (.done (.ok ()))
        jobs := σ.jobs ++ [p.runJob (.confirm (a.lookupHash tx) waitSignal)] } := by
  have hy : (σ.calls i).Yields (p.acceptedHistory tx fees waitSignal a σ.jobs.length) (.ok ()) := by
    rw [hcall]
    exact Program.yields_bind_iff.mpr ⟨_, _, [], (List.append_nil _).symm,
      Provider.yields_broadcast_of_accepted hcode σ.jobs.length, .refl _⟩
  exact Run.of_reaches hy ⟨trivial, trivial, trivial, trivial, rfl, trivial⟩

theorem Run.of_fees {σ : System (Except RelayError Unit)} {i : Nat} {p : Provider}
    {fees : List Coin} (hcall : σ.calls i = (PayingCall.pay p fees).program i) :
    Run σ [(.call i, .answered (.spend p fees) ())]
      { σ with calls := Function.update σ.calls i (.done (.ok ())) } := by
  have hy : (σ.calls i).Yields [.answered (.spend p fees) ()] (.ok ()) := by
    rw [hcall]
    exact reaches_request_bind (.refl _)
  exact Run.of_reaches hy ⟨trivial, trivial⟩

/-- In every run of submissions, sends, broadcasts and fees handed in, between the steps of the
calls: a provider that exports metrics has totals for just the denominations of the readable coins
that were paid in its name, each the sum of their amounts, and in whatever order the coins are added
up.  A call that failed paid nothing, nor did a send that failed before it waited for a transaction.
A provider that exports no metrics has no totals. -/
theorem totals_add_up_fees_paid (hr : Run (start caches fun i => (calls i).program i) h τ)
    (htimely : ∀ e ∈ h, e.2.Timely)
    (hsettled : ∀ i, (∃ p fees, calls i = .pay p fees) ∨ (τ.calls i).Settled)
    (exports : Nat → Option String) (id : Nat) :
    (exports id = none → (Books.after exports h).totals id = []) ∧
    (exports id ≠ none → ((Books.after exports h).totals id).Sorted ∧
      (∀ d, ((Books.after exports h).totals id).lookup d =
        if FeeTotals.amounts d (paid calls (fun p => p.id = id) h) = 0 then none
        else some (FeeTotals.amounts d (paid calls (fun p => p.id = id) h)).sum) ∧
      ∀ coins : List Coin, (coins : Multiset Coin) = paid calls (fun p => p.id = id) h →
        (Books.after exports h).totals id = FeeTotals.addAll [] coins) ∧
    ∀ i e, τ.calls i = .done (.error e) →
      (∀ p msgs memo s, calls i = .send p msgs memo s →
        ∀ x ∈ own (.call i) h, ∀ n, x.request ≠ .join n) →
      ∀ x ∈ own (.call i) h, (calls i).paid (fun p => p.id = id) x = 0 := by
  obtain ⟨coins, htotals, hcoins⟩ := @Books.totals_after exports id h
  refine ⟨fun hnone => ?_, fun hsome => ?_, fun i e hdone hsend => ?_⟩
  · have hnil : (coins : Multiset Coin) = 0 := by
      rw [hcoins]
      exact spent_eq_zero fun _ _ _ _ => by simp [Provider.keeping, hnone]
    rw [htotals, (Multiset.coe_eq_zero coins).mp hnil]
    rfl
  · obtain ⟨name, hname⟩ := Option.ne_none_iff_exists'.mp hsome
    have hpaid : paid calls (fun p => p.id = id) h = spent (Provider.keeping exports id) h := by
      rw [Provider.keeping_of_some hname, hr.paid_eq_spent htimely hsettled]
    have hempty : FeeTotals.Sorted [] := .nil
    refine ⟨htotals ▸ hempty.addAll coins, fun d => ?_, fun coins' hsame => ?_⟩
    · rw [hpaid]
      exact Books.lookup_totals_after id d h
    · rw [htotals]
      exact hempty.addAll_congr (hcoins.trans (hpaid.symm.trans hsame.symm))
  · have hy := hr.reaches i
    rw [hdone] at hy
    exact PayingCall.paid_of_error hy (fun x hx => htimely _ (mem_own.mp hx)) hsend _

/-- One call broadcasts with a fee that cannot be read among others, the others hand in a fee. -/
def paying : Nat → PayingCall
  | 0 => .broadcast .twice [] [⟨"uatom", "100"⟩, ⟨"uatom", "x"⟩, ⟨"uosmo", "7"⟩] none none
  | _ => .pay .twice [⟨"uatom", "40"⟩]

theorem exists_paying_run : ∃ (h : List (Agent × Exchange)) (τ : System (Except RelayError Unit)),
    Run (start (fun _ => ⟨3, 0⟩) fun i => (paying i).program i) h τ ∧ (∀ e ∈ h, e.2.Timely) ∧
      (∀ i, (∃ p fees, paying i = .pay p fees) ∨ (τ.calls i).Settled) ∧
      ([⟨"uatom", "100"⟩, ⟨"uatom", "x"⟩, ⟨"uosmo", "7"⟩, ⟨"uatom", "40"⟩] : List Coin) =
        paid paying (fun p => p.id = 0) h := by
  have hbroadcast : Run (start (fun _ => ⟨3, 0⟩) fun i => (paying i).program i) _ _ :=
    Run.of_accepted_broadcast (i := 0) (a := ⟨0, "", "", [], ""⟩) rfl rfl
  refine ⟨_, _, hbroadcast.append (Run.of_fees (i := 1) rfl), ?_, fun i => ?_, ?_⟩
  · simp [Provider.acceptedHistory, Exchange.Timely]
  · cases i with
    | zero => exact .inr (by simp [Settled])
    | succ i => exact .inl ⟨_, _, rfl⟩
  · simp [Provider.acceptedHistory, paid, pays, paying, PayingCall.paid, PayingCall.offers,
      Exchange.paid, Exchange.amount, Request.fees, Provider.twice]
    rfl

theorem totals_add_up_fees_paid_unreadable : ∃ (h : List (Agent × Exchange))
      (τ : System (Except RelayError Unit)),
    Run (start (fun _ => ⟨3, 0⟩) fun i => (paying i).program i) h τ ∧ (∀ e ∈ h, e.2.Timely) ∧
      (∀ i, (∃ p fees, paying i = .pay p fees) ∨ (τ.calls i).Settled) ∧
      (Books.after (fun _ => some "m") h).totals 0 = [("uatom", 140), ("uosmo", 7)] ∧
      (Books.after (fun _ => none) h).totals 0 = [] := by
  obtain ⟨h, τ, hr, htimely, hsettled, hpaid⟩ := exists_paying_run
  obtain ⟨_, hkept, _⟩ := totals_add_up_fees_paid hr htimely hsettled (fun _ => some "m") 0
  obtain ⟨hempty, _⟩ := totals_add_up_fees_paid hr htimely hsettled (fun _ => none) 0
  refine ⟨h, τ, hr, htimely, hsettled, ?_, hempty rfl⟩
  rw [(hkept (by simp)).2.2 _ hpaid]
  decide

end System

end PacketRelay
