import PacketRelay.Proofs.Submission.FeeAccounts

/-!
# The fees that a registry shows

A registry has one gauge for each key and denomination, but every provider keeps its own totals and
exports all of them whenever it spends.  So a gauge shows the total of the provider of its key that
spent last, which is what the key has spent only if its other providers spent nothing.
-/

namespace PacketRelay

open Program

/-- The request spends for no provider but this one. -/
def Request.SpendsFor (p : Provider) : Request → Prop
  | .spend q _ => q = p
  | _ => True

theorem Request.Submits.spendsFor {p : Provider} (r : Request) (h : r.Submits p) :
    r.SpendsFor p := by
  cases r with
  | spend q fees => exact h
  | _ => trivial

namespace Provider

variable {p : Provider} {s waitSignal : Signal} {msgs : List Outgoing} {memo : String}

theorem asks_submit_spendsFor :
    Asks (Request.SpendsFor p) (p.submit msgs memo s waitSignal).run :=
  asks_submit.mono Request.Submits.spendsFor

theorem asks_submitReporting {caller : Nat} :
    Asks (Request.SpendsFor p) (p.submitReporting msgs memo s waitSignal caller).run := by
  refine Attempt.asks_bind (Attempt.asks_outcome asks_submit_spendsFor) fun outcome => ?_
  cases outcome with
  | ok pending => exact Attempt.asks_bind (Attempt.asks_request trivial) fun _ => trivial
  | error e => exact Attempt.asks_bind (Attempt.asks_request trivial) fun _ => trivial

theorem asks_send : Asks (Request.SpendsFor p) (p.send msgs memo s).run := by
  have hloop (r : Request) (hr : RetryScope.submission.LoopRequest r) : r.SpendsFor p := by
    cases r with
    | spend q fees => exact hr.elim
    | _ => trivial
  refine Attempt.asks_bind (RetryPolicy.asks_attemptsFrom hloop (fun _ => asks_submit_spendsFor)
    _ _ _) fun pending => ?_
  refine Attempt.asks_bind (Attempt.asks_request trivial) fun confirmation => ?_
  refine Attempt.asks_bind (Attempt.asks_ofExcept _) fun response => ?_
  split
  · trivial
  · trivial

/-- The provider acts for a key and exports to a registry. -/
def sharing (exports : Nat → Option String) (name : String) (k : KeyId) (p : Provider) : Bool :=
  exports p.id = some name && p.key = k

end Provider

/-- A call spends for its own provider. -/
theorem PayingCall.asks_program (i : Nat) (c : PayingCall) :
    Asks (Request.SpendsFor c.provider) (c.program i) := by
  cases c with
  | mempool c =>
      cases c with
      | submit c => exact Provider.asks_submit_spendsFor.bind fun _ => trivial
      | report c => exact Provider.asks_submitReporting
  | send p msgs memo s => exact Provider.asks_send.bind fun _ => trivial
  | broadcast p tx fees s waitSignal =>
      exact (Provider.asks_broadcast.mono Request.Submits.spendsFor).bind fun _ => trivial
  | pay p fees => exact ⟨rfl, fun _ => trivial⟩

namespace System

variable {caches : KeyId → SequenceState} {calls : Nat → PayingCall}
  {τ : System (Except RelayError Unit)} {h : List (Agent × Exchange)}

theorem Run.spender (hr : Run (start caches fun i => (calls i).program i) h τ) {a : Agent}
    {p : Provider} {fees : List Coin} (hspend : (a, .answered (.spend p fees) ()) ∈ h) :
    ∃ i, p = (calls i).provider := by
  cases a with
  | call i =>
      exact ⟨i, ((hr.reaches i).asks ((calls i).asks_program i)).1 _ (mem_own.mpr hspend)⟩
  | job n => exact (hr.job_aside (mem_own.mpr hspend)).elim

theorem Run.key_eq (hr : Run (start caches fun i => (calls i).program i) h τ)
    (hclones : ∀ i j, (calls i).provider.id = (calls j).provider.id →
      (calls i).provider.key = (calls j).provider.key) {a b : Agent} {p q : Provider}
    {fees fees' : List Coin} (hp : (a, .answered (.spend p fees) ()) ∈ h)
    (hq : (b, .answered (.spend q fees') ()) ∈ h) (hid : q.id = p.id) : q.key = p.key := by
  obtain ⟨i, rfl⟩ := hr.spender hq
  obtain ⟨j, rfl⟩ := hr.spender hp
  exact hclones i j hid

/-- In every run of submissions, sends, broadcasts and fees handed in by providers of which those
with one number act for one key, between the steps of the calls: let `p` be the last provider of its
key that spent and has paid fees of a denomination.  Then the gauge of the key shows what `p` paid.
That is what the providers of the key paid together just if the others paid nothing.  What a provider
with totals paid adds up to numbers of 128 bits, and then its totals were such numbers throughout. -/
theorem gauge_shows_last_payer (hr : Run (start caches fun i => (calls i).program i) h τ)
    (htimely : ∀ e ∈ h, e.2.Timely)
    (hsettled : ∀ i, (∃ p fees, calls i = .pay p fees) ∨ (τ.calls i).Settled)
    (hclones : ∀ i j, (calls i).provider.id = (calls j).provider.id →
      (calls i).provider.key = (calls j).provider.key)
    (exports : Nat → Option String) (name d : String)
    (hbound : ∀ id, exports id ≠ none →
      ∀ d', (FeeTotals.amounts d' (paid calls (fun q => q.id = id) h)).sum < 1 <<< 128)
    {g g' : List (Agent × Exchange)} {a : Agent} {p : Provider} {fees : List Coin}
    (hname : exports p.id = some name)
    (hh : h = g ++ [(a, .answered (.spend p fees) ())] ++ g')
    (hpaid : FeeTotals.amounts d (paid calls (fun q => q.id = p.id) h) ≠ 0)
    (hlast : ∀ e ∈ g', ∀ q fees', e.2 = .answered (.spend q fees') () → exports q.id = some name →
      q.key = p.key → FeeTotals.amounts d (paid calls (fun r => r.id = q.id) h) = 0) :
    (∀ g₁, g₁ <+: h → ∀ id, ((Books.after exports g₁).totals id).Fits) ∧
      (Books.after exports h).exported name p.key d =
        some (FeeTotals.amounts d (paid calls (fun q => q.id = p.id) h)).sum ∧
      ((Books.after exports h).registries name).fees.lookup (Registry.feeLabels p.key d) =
        some (Decimal.Binary64.ofNat
          (FeeTotals.amounts d (paid calls (fun q => q.id = p.id) h)).sum) ∧
      ((FeeTotals.amounts d (paid calls (fun q => q.id = p.id) h)).sum =
          (FeeTotals.amounts d (paid calls (Provider.sharing exports name p.key) h)).sum ↔
        (FeeTotals.amounts d (paid calls
          (fun q => Provider.sharing exports name p.key q && q.id ≠ p.id) h)).sum = 0) := by
  have hspent (among : Provider → Bool) : paid calls among h = spent among h :=
    hr.paid_eq_spent htimely hsettled among
  simp only [hspent] at hbound hpaid hlast ⊢
  have hp : (a, .answered (.spend p fees) ()) ∈ h := by simp [hh]
  -- A later spending of `p` itself would contradict that only others spend later.
  have hrest : spent (fun q => q.id = p.id) g' = 0 := by
    refine spent_eq_zero fun b q fees' hq => decide_eq_false fun hid => hpaid ?_
    rw [← hid]
    have hq' : (b, .answered (.spend q fees') ()) ∈ h := by simp [hh, hq]
    exact hlast _ hq q fees' rfl (hid ▸ hname) (hr.key_eq hclones hp hq' hid)
  have hbefore : spent (fun q => q.id = p.id) h =
      spent (fun q => q.id = p.id) (g ++ [(a, .answered (.spend p fees) ())]) := by
    rw [hh, spent_append, hrest, add_zero]
  have hexported : (Books.after exports h).exported name p.key d =
      some (FeeTotals.amounts d (spent (fun q => q.id = p.id) h)).sum := by
    rw [hbefore] at hpaid ⊢
    rw [← Provider.keeping_of_some hname] at hpaid ⊢
    rw [hh]
    refine Books.exported_after hname hpaid fun e he q fees' hspend hq hk => ?_
    rw [Provider.keeping_of_some hq, ← hh]
    exact hlast e he q fees' hspend hq hk
  refine ⟨fun g₁ hpart id => Books.fits_after hpart (hbound id), hexported, ?_, ?_⟩
  · rw [(Books.wellKept_after h).gauges, hexported]
    rfl
  · have hown : spent (fun q => Provider.sharing exports name p.key q && decide (q.id = p.id)) h =
        spent (fun q => q.id = p.id) h := by
      refine spent_congr fun b q fees' hq => ?_
      by_cases hid : q.id = p.id
      · simp [Provider.sharing, hid, hname, hr.key_eq hclones hp hq hid]
      · simp [hid]
    have hothers : (fun q => Provider.sharing exports name p.key q && !decide (q.id = p.id)) =
        fun q => Provider.sharing exports name p.key q && decide (q.id ≠ p.id) := by
      simp
    rw [spent_split (Provider.sharing exports name p.key) (fun q => q.id = p.id), hown, hothers,
      FeeTotals.amounts_add, Multiset.sum_add]
    omega

/-- Another provider of the same key. -/
def twin : Provider := { Provider.twice with id := 1 }

/-- Two providers of one key broadcast with fees. -/
def alternating : Nat → PayingCall
  | 0 => .broadcast .twice [] [⟨"uatom", "100"⟩] none none
  | _ => .broadcast twin [] [⟨"uatom", "40"⟩] none none

theorem provider_alternating (i : Nat) :
    (alternating i).provider.key = Provider.twice.key := by
  cases i with
  | zero => rfl
  | succ i => rfl

theorem exists_alternating_run : ∃ (h g : List (Agent × Exchange)) (x : Exchange)
      (τ : System (Except RelayError Unit)),
    h = g ++ [(.call 1, .answered (.spend twin [⟨"uatom", "40"⟩]) ())] ++ [(.call 1, x)] ∧
      (∀ q fees, x ≠ .answered (.spend q fees) ()) ∧
      Run (start (fun _ => ⟨3, 0⟩) fun i => (alternating i).program i) h τ ∧
      (∀ e ∈ h, e.2.Timely) ∧ (∀ i, (τ.calls i).Settled) ∧
      ∀ among, paid alternating among h = (if among .twice then {⟨"uatom", "100"⟩} else 0) +
        if among twin then {⟨"uatom", "40"⟩} else 0 := by
  let a : BroadcastAnswer := ⟨0, "", "", [], ""⟩
  have hfirst : Run (start (fun _ => ⟨3, 0⟩) fun i => (alternating i).program i) _ _ :=
    Run.of_accepted_broadcast (i := 0) (a := a) rfl rfl
  have hr := hfirst.append (Run.of_accepted_broadcast (i := 1) (a := a) rfl rfl)
  refine ⟨_, (Provider.twice.acceptedHistory [] [⟨"uatom", "100"⟩] none a 0).map
      (fun x => (Agent.call 0, x)) ++ [(.call 1, .answered .rest ()),
        (.call 1, .answered (.call twin (.broadcast [])) (.ok a)),
        (.call 1, .answered (.record twin (.broadcast true)) ())],
    .answered (.spawn twin (.confirm (a.lookupHash []) none)) (1 : Nat), _, rfl, by simp, hr, ?_,
    fun i => ?_, ?_⟩
  · simp [Provider.acceptedHistory, Exchange.Timely]
  · by_cases hi : i = 1
    · subst hi
      simp [Settled]
    · by_cases hi' : i = 0
      · subst hi'
        simp [Settled]
      · simp only [Function.update_of_ne hi, Function.update_of_ne hi']
        cases i with
        | zero => exact not_false
        | succ i => exact not_false
  · intro among
    simp [Provider.acceptedHistory, paid, pays, alternating, PayingCall.paid, PayingCall.offers,
      Exchange.paid, a]

theorem sum_amounts_alternating_lt (d : String) (first second : Bool) :
    (FeeTotals.amounts d ((if first then {⟨"uatom", "100"⟩} else 0) +
      if second then {⟨"uatom", "40"⟩} else 0)).sum < 1 <<< 128 := by
  have hfirst := FeeTotals.sum_amounts_singleton_le d ⟨"uatom", "100"⟩
  have hsecond := FeeTotals.sum_amounts_singleton_le d ⟨"uatom", "40"⟩
  have hread : FeeTotals.amountOf ⟨"uatom", "100"⟩ = some 100 := by decide
  have hread' : FeeTotals.amountOf ⟨"uatom", "40"⟩ = some 40 := by decide
  have hnone : (FeeTotals.amounts d 0).sum = 0 := rfl
  rw [hread, Option.getD_some] at hfirst
  rw [hread', Option.getD_some] at hsecond
  rw [FeeTotals.amounts_add, Multiset.sum_add]
  split <;> split <;> omega

/-- The key spent 140, and its gauge shows 40. -/
theorem gauge_shows_last_payer_alternating : ∃ (h : List (Agent × Exchange))
      (τ : System (Except RelayError Unit)),
    Run (start (fun _ => ⟨3, 0⟩) fun i => (alternating i).program i) h τ ∧
      (∀ e ∈ h, e.2.Timely) ∧ (∀ i, (τ.calls i).Settled) ∧
      (FeeTotals.amounts "uatom" (paid alternating
        (Provider.sharing (fun _ => some "m") "m" Provider.twice.key) h)).sum = 140 ∧
      (Books.after (fun _ => some "m") h).exported "m" Provider.twice.key "uatom" = some 40 ∧
      ((Books.after (fun _ => some "m") h).registries "m").fees.lookup
        (Registry.feeLabels Provider.twice.key "uatom") = some (Decimal.Binary64.ofNat 40) := by
  obtain ⟨h, g, x, τ, hh, hx, hr, htimely, hsettled, hpaid⟩ := exists_alternating_run
  have hown : paid alternating (fun q => q.id = twin.id) h = {⟨"uatom", "40"⟩} := hpaid _
  have hamounts : FeeTotals.amounts "uatom" {⟨"uatom", "40"⟩} = {40} := by decide
  have hpositive : FeeTotals.amounts "uatom" (paid alternating (fun q => q.id = twin.id) h) ≠ 0 := by
    rw [hown, hamounts]
    simp
  have hbound : ∀ id, some "m" ≠ none → ∀ d,
      (FeeTotals.amounts d (paid alternating (fun q => q.id = id) h)).sum < 1 <<< 128 := by
    intro id _ d
    rw [hpaid]
    exact sum_amounts_alternating_lt d _ _
  obtain ⟨_, hexported, hgauge, _⟩ := gauge_shows_last_payer hr htimely (fun i => .inr (hsettled i))
    (fun i j _ => (provider_alternating i).trans (provider_alternating j).symm) (fun _ => some "m")
    "m" "uatom" hbound rfl hh hpositive fun e he q fees' hspend => by
      rw [List.mem_singleton.mp he] at hspend
      exact absurd hspend (hx q fees')
  rw [hown, hamounts] at hexported hgauge
  refine ⟨h, τ, hr, htimely, hsettled, ?_, hexported, hgauge⟩
  rw [hpaid]
  decide

end System

end PacketRelay
