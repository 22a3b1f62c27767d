import PacketRelay.Proofs.Query.Accounts
import PacketRelay.Proofs.Submission.Chain
import PacketRelay.Proofs.Submission.Sending

/-!
# Recovery from a wrong sequence

Whatever the cache holds at first, a chain that names the sequence it expects takes the transaction
at the second submission at the latest.  The first one either hits the expected sequence or leaves
it in the cache, where an account look-up that lags behind cannot hide it.
-/

namespace PacketRelay

open Program

/-- The cache of a key after an exchange. -/
def Exchange.leaves (k : KeyId) (st : SequenceState) : Exchange → SequenceState
  | .answered (.release p st') _ => if p.key = k then st' else st
  | _ => st

/-- The cache of a key after a history. -/
def cacheAfter (k : KeyId) (st : SequenceState) (h : List Exchange) : SequenceState :=
  h.foldl (Exchange.leaves k) st

/-- Whenever the lock on the key is taken, the cache is found as it was left. -/
def Threads (k : KeyId) : SequenceState → List Exchange → Prop
  | _, [] => True
  | st, x :: h =>
    (∀ p st', x = .answered (.acquire p) st' → p.key = k → st' = st) ∧ Threads k (x.leaves k st) h

@[simp] theorem cacheAfter_nil (k : KeyId) (st : SequenceState) : cacheAfter k st [] = st := rfl

@[simp] theorem cacheAfter_cons (k : KeyId) (st : SequenceState) (x : Exchange)
    (h : List Exchange) : cacheAfter k st (x :: h) = cacheAfter k (x.leaves k st) h := rfl

theorem cacheAfter_append (k : KeyId) (st : SequenceState) (h h' : List Exchange) :
    cacheAfter k st (h ++ h') = cacheAfter k (cacheAfter k st h) h' := List.foldl_append

theorem threads_append_iff {k : KeyId} {st : SequenceState} {h h' : List Exchange} :
    Threads k st (h ++ h') ↔ Threads k st h ∧ Threads k (cacheAfter k st h) h' := by
  induction h generalizing st with
  | nil => simp [Threads]
  | cons x h ih => simp [Threads, ih, and_assoc]

/-- How often the lock was taken: once for each submission that did not give up waiting for it. -/
def submissions (h : List Exchange) : Nat :=
  h.countP fun x => match x with
    | .answered (.acquire _) _ => true
    | _ => false

theorem submissions_append (h h' : List Exchange) :
    submissions (h ++ h') = submissions h + submissions h' := List.countP_append

theorem Exchange.leaves_of_lockFree {x : Exchange} (hx : x.request.LockFree) (k : KeyId)
    (st : SequenceState) : x.leaves k st = st := by
  unfold Exchange.leaves
  split
  · exact hx.elim
  · rfl

theorem cacheAfter_of_lockFree {h : List Exchange} (hh : ∀ x ∈ h, x.request.LockFree) (k : KeyId)
    (st : SequenceState) : cacheAfter k st h = st := by
  induction h with
  | nil => rfl
  | cons x h ih =>
      obtain ⟨hx, hrest⟩ := List.forall_mem_cons.mp hh
      rw [cacheAfter_cons, Exchange.leaves_of_lockFree hx, ih hrest]

theorem submissions_of_lockFree {h : List Exchange} (hh : ∀ x ∈ h, x.request.LockFree) :
    submissions h = 0 := by
  rw [submissions, List.countP_eq_zero]
  intro x hx
  have hreq := hh x hx
  split
  · exact hreq.elim
  · simp

namespace Provider

variable {p : Provider} {expected : UInt64} {s waitSignal : Signal} {msgs : List Outgoing}
  {anys : List Any} {memo : String} {c : SequenceState} {h : List Exchange}

/-- The chain took a transaction with these messages and this memo at the expected sequence. -/
def Took (p : Provider) (expected : UInt64) (anys : List Any) (memo : String)
    (h : List Exchange) : Prop :=
  ∃ tx a, .answered (.call p (.broadcast tx)) (.ok a) ∈ h ∧ a.code = 0 ∧
    SignedWith expected tx ∧ Carries anys memo tx

/-- A broadcast at the expected sequence is taken, every other one is told the expected one. -/
theorem Broadcasts.obeying {tx : Bytes} {fees : List Coin} {got : UInt64}
    {r : Except RelayError PendingTx} (hb : Broadcasts p tx fees s waitSignal h r)
    (hsigned : SignedWith got tx) (hh : ∀ x ∈ h, p.Obeys expected x) :
    (got = expected ∧ (∃ a, .answered (.call p (.broadcast tx)) (.ok a) ∈ h ∧ a.code = 0) ∧
        ∃ pending, r = .ok pending) ∨
      got ≠ expected ∧ ∃ e, r = .error e ∧ e.Expects expected := by
  cases hb with
  | unsent hg =>
      obtain ⟨h', rfl, hreq⟩ := hg.answered fun x hx => Obeys.isAnswer x (hh x hx)
      obtain ⟨_, _, hr⟩ := Attempt.yields_request_iff.mp hreq
      cases hr
  | @refused answer e hanswer =>
      have hobeys : p.Obeys expected (.answered (.call p (.broadcast tx)) answer) :=
        hh _ (by simp)
      have hgot := hobeys got hsigned
      split at hgot
      · obtain ⟨a, rfl, hcode⟩ := hgot
        simp [rejection, hcode] at hanswer
      · next hne =>
        refine .inr ⟨hne, e, rfl, ?_⟩
        obtain ⟨a, ha, hspace, hcode, hlog⟩ := hgot
        have hrejected : rejection answer = some (.ofTxCode a.codespace a.code a.log) := by
          obtain rfl | ⟨error, rfl⟩ := ha <;> simp [rejection, hcode]
        rw [hrejected, hspace, hcode, hlog] at hanswer
        obtain rfl := Option.some.inj hanswer
        exact RelayError.expects_ofTxCode expected got
  | @accepted a job hcode =>
      have hobeys : p.Obeys expected (.answered (.call p (.broadcast tx)) (.ok a)) :=
        hh _ (by simp)
      have hgot := hobeys got hsigned
      split at hgot
      · next heq => exact .inl ⟨heq, ⟨a, by simp, hcode⟩, _, rfl⟩
      · obtain ⟨a', ha | ⟨error, ha⟩, _, hcode', _⟩ := hgot
        · obtain rfl := Except.ok.inj ha
          rw [hcode] at hcode'
          cases hcode'
        · cases ha

/-- A submission under the lock is taken at the expected sequence, or leaves that in the cache. -/
theorem LockedRun.recovers {state st : SequenceState} {r : Except RelayError PendingTx}
    (hexpected : expected.toNat + 1 < UInt64.size) (hanys : msgs.mapM Outgoing.toAny = .ok anys)
    (hmode : p.config.signMode = .direct)
    (hl : LockedRun p state msgs memo s waitSignal h st r) (hh : ∀ x ∈ h, p.Obeys expected x) :
    (p.Took expected anys memo h ∧ st.next = expected + 1 ∧ ∃ pending, r = .ok pending) ∨
      state.next ≠ expected ∧ st.next = expected ∧ ∃ e, r = .error e ∧ e.Expects expected := by
  have hbuilds {hb : List Exchange} {st₀ : SequenceState} {x : Except RelayError BuiltTx}
      (hbuild : (p.build state msgs memo s).Yields hb (st₀, x))
      (hhb : ∀ x ∈ hb, p.Obeys expected x) :
      (st₀.next ≠ expected → state.next ≠ expected) ∧
        ((∃ built, x = .ok built) ∨ st₀.next ≠ expected ∧ ∃ e, x = .error e ∧ e.Expects expected) := by
    obtain ⟨⟨learned, hle, hnext⟩, hx⟩ := yields_build_obeying hanys hmode hbuild hhb
    refine ⟨fun hne heq => hne ?_, hx⟩
    rw [hnext, heq, max_eq_left_of_le hle]
  cases hl with
  | unbuilt hbuild =>
      obtain ⟨hstate, ⟨_, hok⟩ | ⟨hne, e, he, hexpects⟩⟩ := hbuilds hbuild hh
      · cases hok
      · cases he
        exact .inr ⟨hstate hne, hexpects.next_afterFailure _, _, rfl, hexpects⟩
  | failed hbuild hsend =>
      obtain ⟨hstate, _⟩ := hbuilds hbuild fun x hx => hh x (List.mem_append_left _ hx)
      obtain ⟨_, hsigned, _⟩ := yields_build_ok hbuild
      obtain ⟨_, _, _, hok⟩ | ⟨hne, e, he, hexpects⟩ :=
        hsend.obeying hsigned fun x hx => hh x (List.mem_append_right _ hx)
      · cases hok
      · cases he
        exact .inr ⟨hstate hne, hexpects.next_afterFailure _, _, rfl, hexpects⟩
  | accepted hbuild hsend =>
      obtain ⟨hseq, hsigned, anys', hanys', hcarries⟩ := yields_build_ok hbuild
      rw [hanys] at hanys'
      obtain rfl := Except.ok.inj hanys'
      obtain ⟨heq, ⟨a, hmem, hcode⟩, pending, _⟩ | ⟨_, e, he, _⟩ :=
        hsend.obeying hsigned fun x hx => hh x (List.mem_append_right _ hx)
      · rw [heq] at hsigned
        refine .inl ⟨⟨_, a, List.mem_append_right _ hmem, hcode, hsigned, hcarries⟩, ?_, _, rfl⟩
        rw [SequenceState.next_advance, hseq, heq, max_succ hexpected]
      · cases he

/-- A whole submission that found the cache `c` recovers. -/
theorem SubmitRun.recovers {r : Except RelayError PendingTx}
    (hexpected : expected.toNat + 1 < UInt64.size) (hanys : msgs.mapM Outgoing.toAny = .ok anys)
    (hmode : p.config.signMode = .direct) (hr : SubmitRun p msgs memo s waitSignal h r)
    (hh : ∀ x ∈ h, p.Obeys expected x) (hthreads : Threads p.key c h) :
    submissions h = 1 ∧
      ((p.Took expected anys memo h ∧ (cacheAfter p.key c h).next = expected + 1 ∧
          ∃ pending, r = .ok pending) ∨
        c.next ≠ expected ∧ (cacheAfter p.key c h).next = expected ∧
          ∃ e, r = .error e ∧ e.Expects expected) := by
  cases hr with
  | waited hg =>
      obtain ⟨h', rfl, hreq⟩ := hg.answered fun x hx => Obeys.isAnswer x (hh x hx)
      obtain ⟨_, _, hr⟩ := Attempt.yields_request_iff.mp hreq
      cases hr
  | @held body state st _ hl =>
      obtain ⟨_, hstate, _⟩ := hthreads
      obtain rfl := hstate p state rfl rfl
      have hcache : cacheAfter p.key state (.answered .rest () :: .answered (.acquire p) state ::
          (body ++ [.answered (.release p st) ()])) = st := by
        rw [cacheAfter_cons, cacheAfter_cons, cacheAfter_append]
        simp [Exchange.leaves]
      have hcount : submissions (.answered .rest () :: .answered (.acquire p) state ::
          (body ++ [.answered (.release p st) ()])) = 1 := by
        have hbody := submissions_of_lockFree fun x hx => (hl.holds x hx).lockFree
        simp only [submissions] at hbody
        simp [submissions, hbody]
      rw [hcache]
      refine ⟨hcount, ?_⟩
      obtain ⟨⟨tx, a, hmem, htook⟩, hnext, hok⟩ | ⟨hne, hnext, he⟩ :=
        hl.recovers hexpected hanys hmode fun x hx => hh x (by simp [hx])
      · exact .inl ⟨⟨tx, a, by simp [hmem], htook⟩, hnext, hok⟩
      · exact .inr ⟨hne, hnext, he⟩

theorem Took.mono {h h' : List Exchange} (ht : p.Took expected anys memo h)
    (hsub : ∀ x ∈ h, x ∈ h') : p.Took expected anys memo h' := by
  obtain ⟨tx, a, hmem, htook⟩ := ht
  exact ⟨tx, a, hsub _ hmem, htook⟩

theorem guarded_recovers {r : Except RelayError PendingTx}
    (hexpected : expected.toNat + 1 < UInt64.size) (hanys : msgs.mapM Outgoing.toAny = .ok anys)
    (hmode : p.config.signMode = .direct)
    (hg : Attempt.Guarded s (p.submit msgs memo s s) h r)
    (hh : ∀ x ∈ h, p.Obeys expected x) (hthreads : Threads p.key c h) :
    submissions h = 1 ∧
      ((p.Took expected anys memo h ∧ (cacheAfter p.key c h).next = expected + 1 ∧
          ∃ pending, r = .ok pending) ∨
        c.next ≠ expected ∧ (cacheAfter p.key c h).next = expected ∧
          ∃ e, r = .error e ∧ e.Expects expected) := by
  obtain ⟨h', rfl, hsubmit⟩ := hg.answered fun x hx => Obeys.isAnswer x (hh x hx)
  obtain ⟨hcount, hcases⟩ := (yields_submit hsubmit).recovers hexpected hanys hmode
    (fun x hx => hh x (List.mem_cons_of_mem _ hx)) hthreads.2
  refine ⟨hcount, ?_⟩
  obtain ⟨htook, hnext, hok⟩ | hfailed := hcases
  · exact .inl ⟨htook.mono fun x hx => List.mem_cons_of_mem _ hx, hnext, hok⟩
  · exact .inr hfailed

theorem announcement_lockFree {scope : RetryScope} {n : Nat} {e : RelayError} :
    ∀ x ∈ RetryPolicy.announcement scope n e, x.request.LockFree := by
  intro x hx
  unfold RetryPolicy.announcement at hx
  split at hx
  · obtain rfl := List.mem_singleton.mp hx
    trivial
  · cases hx

/-- An attempt that failed, the pause after it, and what follows. -/
def followedBy (n : Nat) (h : List Exchange) (e : RelayError) (millis : Nat)
    (h' : List Exchange) : List Exchange :=
  .answered (.attempting n) () :: (h ++ (RetryPolicy.announcement .submission n e ++
    (.answered .rest () :: .answered (.pause millis) () :: h')))

theorem submissions_followedBy (n : Nat) (h h' : List Exchange) (e : RelayError) (millis : Nat) :
    submissions (followedBy n h e millis h') = submissions h + submissions h' := by
  have hsplit : submissions (followedBy n h e millis h') = submissions h +
      (submissions (RetryPolicy.announcement .submission n e) + submissions h') := by
    rw [← submissions_append]
    exact submissions_append h _
  rw [hsplit, submissions_of_lockFree announcement_lockFree, Nat.zero_add]

theorem cacheAfter_followedBy (k : KeyId) (c : SequenceState) (n : Nat) (h h' : List Exchange)
    (e : RelayError) (millis : Nat) :
    cacheAfter k c (followedBy n h e millis h') = cacheAfter k (cacheAfter k c h) h' := by
  rw [followedBy, cacheAfter_cons, cacheAfter_append, cacheAfter_append,
    cacheAfter_of_lockFree announcement_lockFree]
  rfl

theorem threads_of_followedBy {k : KeyId} {n millis : Nat} {h' : List Exchange} {e : RelayError}
    (hthreads : Threads k c (followedBy n h e millis h')) :
    Threads k c h ∧ Threads k (cacheAfter k c h) h' := by
  obtain ⟨hfirst, hrest⟩ := threads_append_iff.mp hthreads.2
  obtain ⟨_, hpause⟩ := threads_append_iff.mp hrest
  rw [cacheAfter_of_lockFree announcement_lockFree] at hpause
  exact ⟨hfirst, hpause.2.2⟩

/-- A loop of submissions that found the cache `c` recovers, if it may make a second one or `c` is
right. -/
theorem rounds_recover {left n : Nat} {history : List String} {r : Except RelayError PendingTx}
    (hexpected : expected.toNat + 1 < UInt64.size) (hanys : msgs.mapM Outgoing.toAny = .ok anys)
    (hmode : p.config.signMode = .direct)
    (hr : RetryPolicy.Rounds p.config.retry .submission s (fun _ => p.submit msgs memo s s) left n
      history h r) (hleft : c.next = expected ∨ 0 < left)
    (hh : ∀ x ∈ h, p.Obeys expected x) (hthreads : Threads p.key c h) :
    (p.Took expected anys memo h ∧ (cacheAfter p.key c h).next = expected + 1 ∧
      ∃ pending, r = .ok pending) ∧
      submissions h ≤ 2 ∧ (c.next = expected → submissions h = 1) := by
  induction hr generalizing c with
  | @succeeded left n history h a hg =>
      obtain ⟨hcount, ⟨htook, hnext, hok⟩ | ⟨_, _, e, he, _⟩⟩ :=
        guarded_recovers hexpected hanys hmode hg (List.forall_mem_cons.mp hh).2 hthreads.2
      · have hcount' : submissions (.answered (.attempting n) () :: h) = 1 := hcount
        rw [hcount']
        exact ⟨⟨htook.mono fun x hx => List.mem_cons_of_mem _ hx, hnext, hok⟩, by omega,
          fun _ => rfl⟩
      · cases he
  | failed hg hfinal =>
      obtain ⟨_, ⟨_, _, _, hok⟩ | ⟨_, _, e, he, hexpects⟩⟩ :=
        guarded_recovers hexpected hanys hmode hg (List.forall_mem_cons.mp hh).2 hthreads.2
      · cases hok
      · cases he
        rw [hexpects.isFinal_submission] at hfinal
        cases hfinal
  | exhausted hg _ =>
      obtain ⟨_, ⟨_, _, _, hok⟩ | ⟨hne, _⟩⟩ :=
        guarded_recovers hexpected hanys hmode hg (List.forall_mem_cons.mp hh).2 hthreads.2
      · cases hok
      · obtain heq | hpos := hleft
        · exact absurd heq hne
        · exact absurd hpos (Nat.lt_irrefl 0)
  | @interrupted left n history h hp e _ _ hpause =>
      obtain ⟨h', rfl, hreq⟩ := hpause.answered fun x hx =>
        Obeys.isAnswer x (hh x (by simp [hx]))
      obtain ⟨_, _, hr⟩ := Attempt.yields_request_iff.mp hreq
      cases hr
  | @again left n history h h' e r hg _ _ ih =>
      have hagain : Threads p.key c (followedBy n h e p.config.retry.delay.millis h') := hthreads
      obtain ⟨hthreads₁, hthreads₂⟩ := threads_of_followedBy hagain
      obtain ⟨hcount, ⟨_, _, _, hok⟩ | ⟨hne, hnext, _⟩⟩ :=
        guarded_recovers hexpected hanys hmode hg (fun x hx => hh x (by simp [hx])) hthreads₁
      · cases hok
      obtain ⟨⟨htook, hlast, hok⟩, _, hone⟩ :=
        ih (.inl hnext) (fun x hx => hh x (by simp [hx])) hthreads₂
      have hcount' := submissions_followedBy n h h' e p.config.retry.delay.millis
      rw [hcount, hone hnext] at hcount'
      have hcache := cacheAfter_followedBy p.key c n h h' e p.config.retry.delay.millis
      refine ⟨⟨htook.mono fun x hx => by simp [hx], ?_, hok⟩, Nat.le_of_eq hcount',
        fun heq => absurd heq hne⟩
      exact (congrArg SequenceState.next hcache).trans hlast

/-- The history of a call that alone uses its key, on a chain that expects a sequence. -/
def Obeying (p : Provider) (expected : UInt64) (c : SequenceState) (h : List Exchange) : Prop :=
  (∀ x ∈ h, p.Obeys expected x) ∧ Threads p.key c h

/-- The value of an account query that shows an account without transactions. -/
def freshAccount : Bytes :=
  (Schema.Message.ofMessage 1 (Any.pack .baseAccount []).toMessage).encode

/-- An answer shows an account whose sequence is not ahead of the chain. -/
theorem showsAccount_baseAccount {holder : String} {publicKey : Option Any}
    {number sequence expected : UInt64} (hsequence : sequence ≤ expected)
    (hsize : (accountAnswer (baseAccount holder publicKey number sequence)).length < 1 <<< 64) :
    ShowsAccount expected (.ok ⟨0, "", "", [],
      accountAnswer (baseAccount holder publicKey number sequence), none, 0⟩) :=
  ⟨_, _, rfl, rfl, accountOf_baseAccount hsize, by rwa [baseAccount_sequence]⟩

theorem length_freshAccount :
    (accountAnswer (baseAccount "" none 0 0)).length < 1 <<< 64 := by decide +kernel

theorem freshAccount_eq : freshAccount = accountAnswer (baseAccount "" none 0 0) := rfl

theorem accountOf_freshAccount (address : String) : accountOf address freshAccount = .ok [] := by
  rw [freshAccount_eq, accountOf_baseAccount length_freshAccount]
  rfl

theorem showsAccount_freshAccount (expected : UInt64) :
    ShowsAccount expected (.ok ⟨0, "", "", [], freshAccount, none, 0⟩) := by
  rw [freshAccount_eq]
  exact showsAccount_baseAccount UInt64.zero_le length_freshAccount

theorem showsGas_empty : p.ShowsGas (.ok ⟨0, "", "", [], [], none, 0⟩) :=
  ⟨_, [], 0, rfl, rfl, by rfl, by simp [adjustGas, PacketRelay.adjustGas, simulatedGas,
    Schema.Message.message?]⟩

theorem exists_obeys_broadcast (p : Provider) (expected : UInt64) (q : Provider) (tx : Bytes) :
    ∃ a, p.Obeys expected (.answered (.call q (.broadcast tx)) a) := by
  by_cases hsigned : SignedWith expected tx
  · refine ⟨.ok ⟨0, "", "", [], ""⟩, fun got hgot => ?_⟩
    rw [if_pos (hgot.unique hsigned)]
    exact ⟨_, rfl, rfl⟩
  · by_cases hother : ∃ got, SignedWith got tx
    · obtain ⟨got, hgot⟩ := hother
      refine ⟨.ok ⟨32, "sdk", mismatchLog expected got, [], ""⟩, fun got' hgot' => ?_⟩
      obtain rfl := hgot'.unique hgot
      have hne : got' ≠ expected := by
        rintro rfl
        exact hsigned hgot
      rw [if_neg hne]
      exact ⟨_, .inl rfl, rfl, rfl, rfl⟩
    · exact ⟨.ok ⟨0, "", "", [], ""⟩, fun got hgot => absurd ⟨got, hgot⟩ hother⟩

theorem exists_obeys_query (p : Provider) (expected : UInt64) (q : Provider) (path : String)
    (data : Bytes) (height : UInt64) (prove : Bool) :
    ∃ a, p.Obeys expected (.answered (.call q (.abciQuery path data height prove)) a) := by
  by_cases hpath : path = accountPath
  · refine ⟨.ok ⟨0, "", "", [], freshAccount, none, 0⟩, fun _ => showsAccount_freshAccount _, ?_⟩
    intro hsimulate
    rw [hpath] at hsimulate
    exact absurd hsimulate (by decide)
  · exact ⟨.ok ⟨0, "", "", [], [], none, 0⟩, fun hp => absurd hp hpath,
      fun _ _ _ _ _ => .inl showsGas_empty⟩

/-- The chain has an answer to every request, whatever the cache is. -/
theorem exists_obeying_answer (p : Provider) (expected : UInt64) (r : Request)
    (st : SequenceState) :
    ∃ a, p.Obeys expected (.answered r a) ∧ Threads p.key st [.answered r a] := by
  have hfree (a : r.Answer) (hr : r.LockFree) : Threads p.key st [.answered r a] := by
    refine ⟨fun q st' hx _ => ?_, trivial⟩
    cases hx
    exact hr.elim
  have hany (hr : r.LockFree) (hobeys : ∀ a, p.Obeys expected (.answered r a)) :
      ∃ a, p.Obeys expected (.answered r a) ∧ Threads p.key st [.answered r a] := by
    obtain ⟨a⟩ := r.nonempty_answer
    exact ⟨a, hobeys a, hfree a hr⟩
  cases r with
  | acquire q =>
      refine ⟨st, trivial, fun q' st' hx _ => ?_, trivial⟩
      cases hx
      rfl
  | release q st' =>
      refine ⟨(), trivial, fun q' st'' hx _ => ?_, trivial⟩
      cases hx
  | address q => exact ⟨.ok "", ⟨_, rfl⟩, hfree _ trivial⟩
  | sign q document => exact ⟨.ok [], ⟨_, rfl⟩, hfree _ trivial⟩
  | call q call =>
      cases call with
      | broadcast tx =>
          obtain ⟨a, ha⟩ := exists_obeys_broadcast p expected q tx
          exact ⟨a, ha, hfree a trivial⟩
      | abciQuery path data height prove =>
          obtain ⟨a, ha⟩ := exists_obeys_query p expected q path data height prove
          exact ⟨a, ha, hfree a trivial⟩
      | latestBlock | blockTime | lightBlock | tx | txSearch =>
          exact hany trivial fun _ => trivial
  | _ => exact hany trivial fun _ => trivial

theorem Obeying.exists_answer (h : List Exchange) (r : Request) (hh : p.Obeying expected c h) :
    ∃ a, p.Obeying expected c (h ++ [.answered r a]) := by
  obtain ⟨a, hobeys, hthreads⟩ :=
    exists_obeying_answer p expected r (cacheAfter p.key c h)
  refine ⟨a, fun x hx => ?_, threads_append_iff.mpr ⟨hh.2, hthreads⟩⟩
  obtain hx | hx := List.mem_append.mp hx
  · exact hh.1 x hx
  · exact List.mem_singleton.mp hx ▸ hobeys

/-- On a chain that expects a sequence, a send that may make two attempts can always go on, and when
it is through its transaction was taken at that sequence, after one rejected submission at most, and
the cache is one ahead. -/
theorem send_recovers_sequence (hexpected : expected.toNat + 1 < UInt64.size)
    (hattempts : 2 ≤ p.config.retry.maxAttempts) (hanys : msgs.mapM Outgoing.toAny = .ok anys)
    (hmode : p.config.signMode = .direct) :
    (∀ g q, (p.send msgs memo s).run.Reaches g q → p.Obeying expected c g →
      ∃ g' r, q.Yields g' r ∧ p.Obeying expected c (g ++ g')) ∧
    ∀ h r, (p.send msgs memo s).run.Yields h r → p.Obeying expected c h →
      p.Took expected anys memo h ∧ submissions h ≤ 2 ∧
        (cacheAfter p.key c h).next = expected + 1 := by
  refine ⟨fun g q _ hg => q.exists_yields_within Obeying.exists_answer hg, fun h r hy hobeying => ?_⟩
  have hleft : 0 < p.config.retry.attempts - 1 := by
    rw [RetryPolicy.attempts]
    omega
  have hloop {h : List Exchange} {x : Except RelayError PendingTx}
      (hr : SendRounds p msgs memo s h x) (hh : ∀ x ∈ h, p.Obeys expected x)
      (hthreads : Threads p.key c h) :=
    rounds_recover hexpected hanys hmode hr (.inr hleft) hh hthreads
  have hjoined {h : List Exchange} {pending : PendingTx} {confirmation : Confirmation}
      (hr : SendRounds p msgs memo s h (.ok pending))
      (hobeying : p.Obeying expected c (h ++ [.answered (.join pending.job) confirmation])) :
      p.Took expected anys memo (h ++ [.answered (.join pending.job) confirmation]) ∧
        submissions (h ++ [.answered (.join pending.job) confirmation]) ≤ 2 ∧
          (cacheAfter p.key c (h ++ [.answered (.join pending.job) confirmation])).next =
            expected + 1 := by
    obtain ⟨⟨htook, hnext, _⟩, hcount, _⟩ := hloop hr
      (fun x hx => hobeying.1 x (List.mem_append_left _ hx)) (threads_append_iff.mp hobeying.2).1
    refine ⟨htook.mono fun x hx => List.mem_append_left _ hx, ?_, ?_⟩
    · rw [submissions_append]
      exact hcount
    · rw [cacheAfter_append]
      exact hnext
  cases yields_send hy with
  | unsubmitted hr =>
      obtain ⟨⟨_, _, _, hok⟩, _⟩ := hloop hr hobeying.1 hobeying.2
      cases hok
  | unconfirmed hr => exact hjoined hr hobeying
  | confirmed hr _ => exact hjoined hr hobeying

/-- A provider that makes two attempts. -/
def twice : Provider :=
  ⟨0, ⟨"chain-1", "key", "cosmos", 1, ⟨0, "stake"⟩, 0, 0, .direct, .ofSeconds 10, .ofSeconds 1,
    ⟨2, .ofMillis 10, true⟩⟩, []⟩

theorem send_recovers_from_cache_ahead : ∃ h r, (twice.send [] "" none).run.Yields h r ∧
    twice.Obeying 3 ⟨10, 0⟩ h ∧ twice.Took 3 [] "" h ∧ submissions h ≤ 2 ∧
      (cacheAfter twice.key ⟨10, 0⟩ h).next = 4 := by
  obtain ⟨hgo, hend⟩ :=
    @send_recovers_sequence twice 3 none [] [] "" ⟨10, 0⟩ (by decide) (by decide) rfl rfl
  obtain ⟨h, r, hy, hobeying⟩ := hgo [] _ (.refl _) ⟨by simp, trivial⟩
  exact ⟨h, r, hy, hobeying, hend h r hy hobeying⟩

end Provider

end PacketRelay
