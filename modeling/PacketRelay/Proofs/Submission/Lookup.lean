import PacketRelay.Proofs.Query.Accounts
import PacketRelay.Proofs.Submission.Exchanges

/-!
# The account look-up of a submission

A history tells whether the account was looked up, and with which number and sequence.  Before the
look-up the account is asked for once to see that it exists; failed attempts of either show nothing.
-/

namespace PacketRelay

open Program

/-- The request asks for an account. -/
def Request.AsksAccount : Request → Prop
  | .call _ (.abciQuery path ..) => path = Provider.accountPath
  | _ => False

/-- The account in a successful answer to an account query. -/
def Exchange.shownAccount? : Exchange → Option Schema.Message
  | .answered (.call _ (.abciQuery path ..)) (.ok a) =>
    if path = Provider.accountPath ∧ a.code = 0 then (Provider.accountOf "" a.value).toOption
    else none
  | _ => none

/-- The number and the sequence of the account, once a history has looked them up. -/
def lookedUp? (h : List Exchange) : Option (UInt64 × UInt64) :=
  (h.filterMap Exchange.shownAccount?)[1]?.map fun account => (account.number 3, account.number 4)

theorem Exchange.shownAccount?_eq_none {x : Exchange} (hx : ¬ x.request.AsksAccount) :
    x.shownAccount? = none := by
  unfold shownAccount?
  split
  · next q path data height prove a =>
    exact if_neg fun hpath => hx hpath.1
  · rfl

theorem Exchange.exists_of_shownAccount? {x : Exchange} {account : Schema.Message}
    (hx : x.shownAccount? = some account) : ∃ q data height prove a,
      x = .answered (.call q (.abciQuery Provider.accountPath data height prove)) (.ok a) ∧
        a.code = 0 ∧ Provider.accountOf "" a.value = .ok account := by
  unfold shownAccount? at hx
  split at hx
  · next q path data height prove a =>
    split at hx
    · next hshown =>
      obtain ⟨rfl, hcode⟩ := hshown
      cases haccount : Provider.accountOf "" a.value with
      | error e =>
          rw [haccount] at hx
          cases hx
      | ok shown =>
          rw [haccount] at hx
          obtain rfl := Option.some.inj hx
          exact ⟨q, data, height, prove, a, rfl, hcode, haccount⟩
    · cases hx
  · cases hx

theorem filterMap_shownAccount?_eq_nil {h : List Exchange}
    (hh : ∀ x ∈ h, ¬ x.request.AsksAccount) : h.filterMap Exchange.shownAccount? = [] :=
  List.filterMap_eq_nil_iff.mpr fun x hx => Exchange.shownAccount?_eq_none (hh x hx)

theorem lookedUp?_append {h h' : List Exchange} (hh : ∀ x ∈ h', ¬ x.request.AsksAccount) :
    lookedUp? (h ++ h') = lookedUp? h := by
  rw [lookedUp?, List.filterMap_append, filterMap_shownAccount?_eq_nil hh, List.append_nil, lookedUp?]

theorem RetryScope.LoopRequest.not_asksAccount {scope : RetryScope} (r : Request)
    (hr : scope.LoopRequest r) : ¬ r.AsksAccount := by
  cases r with
  | call q c => exact hr.elim
  | _ => exact id

theorem Request.Assembles.not_asksAccount {p : Provider} (r : Request) (hr : r.Assembles p) :
    ¬ r.AsksAccount := by
  cases r with
  | call q c =>
      cases c with
      | abciQuery path data height prove =>
          intro hpath
          have hsame : Provider.simulatePath = Provider.accountPath := hr.2.symm.trans hpath
          exact absurd hsame (by decide)
      | _ => exact id
  | _ => exact id

theorem Request.Delivers.not_asksAccount {p : Provider} {r : Request} (hr : r.Delivers p) :
    ¬ r.AsksAccount := by
  cases r with
  | call q c =>
      cases c with
      | broadcast tx => exact not_false
      | _ => exact hr.elim
  | _ => exact not_false

/-- What an outcome says about the accounts that its history shows: none if it is a failure. -/
def Shows {α : Type} (P : α → List Schema.Message → Prop) (h : List Exchange) :
    Except RelayError α → Prop
  | .ok a => P a (h.filterMap Exchange.shownAccount?)
  | .error _ => h.filterMap Exchange.shownAccount? = []

section Shows

variable {α : Type} {P : α → List Schema.Message → Prop} {h h' : List Exchange}
  {r : Except RelayError α}

theorem shows_append_iff (hh : h.filterMap Exchange.shownAccount? = []) :
    Shows P (h ++ h') r ↔ Shows P h' r := by
  have heq : (h ++ h').filterMap Exchange.shownAccount? = h'.filterMap Exchange.shownAccount? := by
    rw [List.filterMap_append, hh, List.nil_append]
  cases r with
  | ok a => rw [Shows, Shows, heq]
  | error e => rw [Shows, Shows, heq]

theorem shows_cons_iff {x : Exchange} (hx : x.shownAccount? = none) :
    Shows P (x :: h) r ↔ Shows P h r :=
  shows_append_iff (h := [x]) (List.filterMap_cons_none hx)

theorem Attempt.Guarded.shows {s : Signal} {op : Attempt α} (hg : Guarded s op h r)
    (hop : ∀ h r, op.run.Yields h r → Shows P h r)
    (hshort : ∀ h a, op.run.Yields h (.ok a) → h.length ≤ 1) : Shows P h r := by
  cases hg with
  | fired _ => rfl
  | finished hy => exact (shows_cons_iff rfl).mpr (hop _ _ hy)
  | @dropped n h q next _ hreach =>
      -- what was done is part of a whole run, and a run that shows an account ends with that
      obtain ⟨a⟩ := q.nonempty_answer
      obtain ⟨t, r, hy⟩ := (next a).exists_yields
      have hwhole : op.run.Yields (h ++ .answered q a :: t) r := hreach.append (.step (.ask a) hy)
      have hnone : h.filterMap Exchange.shownAccount? = [] := by
        cases r with
        | ok b =>
            have hlen := hshort _ b hwhole
            rw [List.length_append, List.length_cons] at hlen
            have hempty : h = [] := List.eq_nil_of_length_eq_zero (by omega)
            rw [hempty]
            rfl
        | error e =>
            have hshows : (h ++ .answered q a :: t).filterMap Exchange.shownAccount? = [] :=
              hop _ _ hwhole
            rw [List.filterMap_append] at hshows
            exact (List.append_eq_nil_iff.mp hshows).1
      exact (shows_cons_iff rfl).mpr ((shows_append_iff hnone).mpr rfl)

/-- Of the attempts of a loop only the last one counts, and only if it succeeded. -/
theorem RetryPolicy.Rounds.shows {policy : RetryPolicy} {scope : RetryScope} {s : Signal}
    {operation : Nat → Attempt α} {left n : Nat} {history : List String}
    (hr : Rounds policy scope s operation left n history h r)
    (hop : ∀ n h r, Attempt.Guarded s (operation n) h r → Shows P h r) : Shows P h r := by
  have hann (n : Nat) (e : RelayError) :
      (announcement scope n e).filterMap Exchange.shownAccount? = [] := by
    unfold announcement
    split <;> rfl
  induction hr with
  | succeeded hg => exact (shows_cons_iff rfl).mpr (hop _ _ _ hg)
  | failed hg _ => exact (shows_cons_iff rfl).mpr (hop _ _ _ hg)
  | @exhausted n history h e hg _ =>
      have hfailed : h.filterMap Exchange.shownAccount? = [] := hop _ _ _ hg
      exact (shows_cons_iff rfl).mpr hfailed
  | @interrupted left n history h hp e hg _ hpause =>
      have hfailed : h.filterMap Exchange.shownAccount? = [] := hop _ _ _ hg
      have hpaused : hp.filterMap Exchange.shownAccount? = [] := by
        obtain ⟨_, m, _, rfl | rfl⟩ := hpause.request_error <;> rfl
      exact (shows_cons_iff rfl).mpr <| (shows_append_iff hfailed).mpr <|
        (shows_append_iff (hann n e)).mpr hpaused
  | @again left n history h h' e r hg _ _ ih =>
      have hfailed : h.filterMap Exchange.shownAccount? = [] := hop _ _ _ hg
      have hlast : Shows P (.answered .rest () :: .answered (.pause policy.delay.millis) () :: h') r :=
        (shows_cons_iff rfl).mpr ((shows_cons_iff rfl).mpr ih)
      exact (shows_cons_iff rfl).mpr <| (shows_append_iff hfailed).mpr <|
        (shows_append_iff (hann n e)).mpr hlast

end Shows

namespace Provider

variable {p : Provider} {s waitSignal : Signal} {h : List Exchange}

/-- Whose account it is matters only where it is missing. -/
theorem accountOf_toOption (address : String) (value : Bytes) :
    (accountOf address value).toOption = (accountOf "" value).toOption := by
  unfold accountOf
  cases decodeAnswer .queryAccountResponse value with
  | error e => rfl
  | ok response =>
      simp only [Bind.bind, Except.bind]
      cases response.message? 1 with
      | none => rfl
      | some packed => rfl

theorem shownAccount?_answered (a : QueryAnswer) (hcode : a.code = 0) (data : Bytes) (height : UInt64)
    (prove : Bool) (address : String) :
    (Exchange.answered (.call p (.abciQuery accountPath data height prove)) (.ok a)).shownAccount? =
      (accountOf address a.value).toOption := by
  rw [accountOf_toOption, Exchange.shownAccount?, if_pos ⟨rfl, hcode⟩]

/-- An account is shown by a successful answer to an account query, and is the base account that is
packed in the answer. -/
theorem shownAccount?_eq_some_iff {x : Exchange} {account : Schema.Message} :
    x.shownAccount? = some account ↔ ∃ q data height prove a response packed,
      x = .answered (.call q (.abciQuery "/cosmos.auth.v1beta1.Query/Account" data height prove))
        (.ok a) ∧ a.code = 0 ∧
      Schema.decode .queryAccountResponse a.value = some response ∧
      response.message? 1 = some packed ∧ packed.text 1 = "/cosmos.auth.v1beta1.BaseAccount" ∧
      Schema.decode .baseAccount (packed.bytes 2) = some account := by
  constructor
  · intro hx
    obtain ⟨q, data, height, prove, a, rfl, hcode, haccount⟩ := Exchange.exists_of_shownAccount? hx
    obtain ⟨response, packed, hpacked⟩ := accountOf_ok_iff.mp haccount
    exact ⟨q, data, height, prove, a, response, packed, rfl, hcode, hpacked⟩
  · rintro ⟨q, data, height, prove, a, response, packed, rfl, hcode, hpacked⟩
    have haccount : accountOf "" a.value = .ok account := accountOf_ok_iff.mpr ⟨_, _, hpacked⟩
    exact (shownAccount?_answered a hcode data height prove "").trans (congrArg _ haccount)

/-- An answer that packs a base account shows its number and its sequence. -/
theorem shownAccount?_baseAccount {holder : String} {publicKey : Option Any}
    {number sequence : UInt64}
    (hsize : (accountAnswer (baseAccount holder publicKey number sequence)).length < 1 <<< 64)
    {a : QueryAnswer} (hcode : a.code = 0)
    (hvalue : a.value = accountAnswer (baseAccount holder publicKey number sequence))
    (data : Bytes) (height : UInt64) (prove : Bool) :
    (Exchange.answered (.call p (.abciQuery accountPath data height prove)) (.ok a)).shownAccount?.map
      (fun account => (account.number 3, account.number 4)) = some (number, sequence) := by
  rw [shownAccount?_answered a hcode data height prove "", hvalue, accountOf_baseAccount hsize]
  simp only [Except.toOption, Option.map_some, baseAccount_number, baseAccount_sequence]

/-- An account query that succeeds is one exchange and shows the account; one that fails shows
none. -/
theorem yields_queryAccount_shown {address : String} {r : Except RelayError Schema.Message}
    (hy : (p.queryAccount address).run.Yields h r) :
    (∃ account x, r = .ok account ∧ h = [x] ∧ x.shownAccount? = some account) ∨
      ∃ e, r = .error e ∧ h.filterMap Exchange.shownAccount? = [] := by
  obtain ⟨e, hquery, rfl⟩ | ⟨h₁, x, h₂, rfl, hquery, hy₁⟩ := Attempt.yields_bind_iff.mp hy
  · obtain ⟨_, _, he⟩ := Attempt.yields_outcome_iff.mp hquery
    cases he
  obtain ⟨x, hquery, hx⟩ := Attempt.yields_outcome_iff.mp hquery
  obtain rfl := Except.ok.inj hx
  have hfailure {e : RelayError} (he : x = .error e) : h₂ = [] ∧ ∃ e', r = .error e' := by
    subst he
    dsimp only at hy₁
    split at hy₁
    · obtain ⟨rfl, rfl⟩ := Attempt.yields_throw_iff.mp hy₁
      exact ⟨rfl, _, rfl⟩
    · obtain ⟨rfl, rfl⟩ := Attempt.yields_throw_iff.mp hy₁
      exact ⟨rfl, _, rfl⟩
  obtain ⟨a, rfl, hx⟩ | ⟨e, rfl, rfl⟩ := yields_queryAbci hquery
  · by_cases hcode : a.code = 0
    · have hok : x = .ok a := by
        rw [hx]
        simp [checkAnswer, hcode]
      subst hok
      obtain ⟨rfl, rfl⟩ := Attempt.yields_ofExcept_iff.mp hy₁
      have hshown := shownAccount?_answered (p := p) a hcode (Schema.Message.ofText 1 address).encode 0
        false address
      cases haccount : accountOf address a.value with
      | ok account =>
          rw [haccount] at hshown
          exact .inl ⟨account, _, rfl, by simp, hshown⟩
      | error e =>
          rw [haccount] at hshown
          exact .inr ⟨e, rfl, List.filterMap_cons_none hshown⟩
    · have hrefused : x = .error (.abciQuery a.codespace a.code a.log) := by
        rw [hx]
        simp [checkAnswer, hcode]
      obtain ⟨rfl, e, rfl⟩ := hfailure hrefused
      have hnone : (Exchange.answered (.call p (.abciQuery accountPath
          (Schema.Message.ofText 1 address).encode 0 false)) (.ok a)).shownAccount? = none :=
        if_neg fun hshown => hcode hshown.2
      exact .inr ⟨e, rfl, List.filterMap_cons_none hnone⟩
  · obtain ⟨rfl, e', rfl⟩ := hfailure rfl
    exact .inr ⟨e', rfl, rfl⟩

theorem yields_lookupStep {α : Type} {g : Schema.Message → α} {address : String}
    {r : Except RelayError α}
    (hy : (p.config.retry.step s
      (p.queryAccount address >>= fun account => pure (g account))).run.Yields h r) :
    Shows (fun a shown => ∃ account, shown = [account] ∧ a = g account) h r := by
  have hcases {h : List Exchange} {r : Except RelayError α}
      (hy : (p.queryAccount address >>= fun account => pure (g account)).run.Yields h r) :
      (∃ account x, r = .ok (g account) ∧ h = [x] ∧ x.shownAccount? = some account) ∨
        ∃ e, r = .error e ∧ h.filterMap Exchange.shownAccount? = [] := by
    obtain ⟨e, hquery, rfl⟩ | ⟨h₁, account, h₂, rfl, hquery, hy₁⟩ := Attempt.yields_bind_iff.mp hy
    · obtain ⟨_, _, he, _⟩ | ⟨_, _, hnone⟩ := yields_queryAccount_shown hquery
      · cases he
      · exact .inr ⟨e, rfl, hnone⟩
    · obtain ⟨rfl, rfl⟩ := Attempt.yields_pure_iff.mp hy₁
      obtain ⟨_, x, hok, rfl, hshown⟩ | ⟨_, he, _⟩ := yields_queryAccount_shown hquery
      · obtain rfl := Except.ok.inj hok
        exact .inl ⟨account, x, rfl, rfl, hshown⟩
      · cases he
  refine (RetryPolicy.yields_attemptsFrom hy).shows fun _ h r hg => hg.shows ?_ ?_
  · intro h r hy
    obtain ⟨account, x, rfl, rfl, hshown⟩ | ⟨e, rfl, hnone⟩ := hcases hy
    · exact ⟨account, List.filterMap_cons_some hshown, rfl⟩
    · exact hnone
  · intro h a hy
    obtain ⟨_, x, _, rfl, _⟩ | ⟨_, he, _⟩ := hcases hy
    · exact Nat.le_refl 1
    · cases he

/-- A preparation that succeeds shows the account twice, and takes the number and the sequence that
were shown last. -/
theorem yields_prepare_shown {r : Except RelayError TxFactory}
    (hy : (p.prepare p.factory s).run.Yields h r) :
    (∃ number sequence, r = .ok (p.factoryFor number sequence) ∧
        lookedUp? h = some (number, sequence) ∧
        (h.filterMap Exchange.shownAccount?).length = 2) ∨
      ∃ e, r = .error e ∧ (h.filterMap Exchange.shownAccount?).length ≤ 1 := by
  rw [prepare_factory] at hy
  have haddress {h : List Exchange} {r : Except RelayError String}
      (hy : (p.config.retry.step s p.address).run.Yields h r) :
      h.filterMap Exchange.shownAccount? = [] :=
    filterMap_shownAccount?_eq_nil <| hy.asks <|
      RetryPolicy.asks_step RetryScope.LoopRequest.not_asksAccount (Program.asks_request not_false)
  obtain ⟨e, hfail, rfl⟩ | ⟨h₁, sender, h₂, rfl, hsender, hy₁⟩ := Attempt.yields_bind_iff.mp hy
  · exact .inr ⟨e, rfl, by rw [haddress hfail]; exact Nat.zero_le 1⟩
  have hfirst := haddress hsender
  obtain ⟨e, hfail, rfl⟩ | ⟨h₂, _, h₃, rfl, hensure, hy₂⟩ := Attempt.yields_bind_iff.mp hy₁
  · have hnone : h₂.filterMap Exchange.shownAccount? = [] := yields_lookupStep hfail
    refine .inr ⟨e, rfl, ?_⟩
    rw [List.filterMap_append, hfirst, hnone]
    exact Nat.zero_le 1
  obtain ⟨existing, hexisting, _⟩ := yields_lookupStep hensure
  obtain ⟨e, hfail, rfl⟩ | ⟨h₃, account, h₄, rfl, hlookup, hy₃⟩ := Attempt.yields_bind_iff.mp hy₂
  · have hnone : h₃.filterMap Exchange.shownAccount? = [] := yields_lookupStep hfail
    refine .inr ⟨e, rfl, ?_⟩
    rw [List.filterMap_append, List.filterMap_append, hfirst, hexisting, hnone]
    exact Nat.le_refl 1
  obtain ⟨shown, hshown, rfl⟩ := yields_lookupStep hlookup
  obtain ⟨rfl, rfl⟩ := Attempt.yields_pure_iff.mp hy₃
  have hboth : (h₁ ++ (h₂ ++ (h₃ ++ []))).filterMap Exchange.shownAccount? = [existing, shown] := by
    simp only [List.filterMap_append, hfirst, hexisting, hshown, List.filterMap_nil]
    rfl
  refine .inl ⟨_, _, rfl, ?_, ?_⟩
  · rw [lookedUp?, hboth]
    rfl
  · rw [hboth]
    rfl

end Provider

end PacketRelay
