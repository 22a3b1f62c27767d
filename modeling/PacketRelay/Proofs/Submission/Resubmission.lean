import PacketRelay.Proofs.Retry.Calls
import PacketRelay.Proofs.Submission.Outcome
import PacketRelay.Proofs.Submission.Passing

/-!
# Resubmission after a wrong sequence

A submission that fails with a sequence mismatch leaves the expected sequence in the cache.  A loop
of submissions goes on from there with another one, if it may make it and no signal stops it, unless
the mismatch is definitive: then the loop gives up, however many submissions are left.
-/

namespace PacketRelay.Provider

open Program

variable {p : Provider} {msgs : List Outgoing} {memo : String} {s waitSignal : Signal}
  {c : SequenceState} {h before g t : List Exchange} {n : Nat} {e : RelayError}

/-- The submissions that a history of a loop of submissions shows: number `n` came after `before`,
exchanged `g` with the result `x`, and was followed by `t`. -/
def Submitted (p : Provider) (msgs : List Outgoing) (memo : String) (s : Signal)
    (h before : List Exchange) (n : Nat) (g : List Exchange) (x : Except RelayError PendingTx)
    (t : List Exchange) : Prop :=
  RetryPolicy.Call p.config.retry .submission s (fun _ => p.submit msgs memo s s) h before n g x t

/-- A submission finds this cache if it takes the lock, and whatever it broadcasts is signed with the
cached sequence or a later one. -/
structure StartsFrom (c : SequenceState) (g : List Exchange) : Prop where
  found : ∀ q st, .answered (.acquire q) st ∈ g → st = c
  signed : ∀ tx ∈ g.filterMap Exchange.broadcast?, ∃ n, SignedWith n tx ∧ c.next ≤ n

theorem SubmitRun.found {q : Provider} {st : SequenceState} {h' : List Exchange}
    {r : Except RelayError PendingTx}
    (hr : SubmitRun p msgs memo s waitSignal (h ++ .answered (.acquire q) st :: h') r)
    (hthreads : Threads p.key c (h ++ [.answered (.acquire q) st])) : st = c := by
  obtain ⟨rfl, rfl⟩ := hr.of_acquire
  exact hthreads.2.1 q st rfl rfl

theorem SubmitRun.signed {x : Exchange} {tx : Bytes} {h' : List Exchange}
    {r : Except RelayError PendingTx} (hr : SubmitRun p msgs memo s waitSignal (h ++ x :: h') r)
    (hx : x.broadcast? = some tx) (hthreads : Threads p.key c h) :
    ∃ n, SignedWith n tx ∧ c.next ≤ n := by
  obtain ⟨state, hb, st, built, rfl, hbuild, rfl⟩ := hr.of_broadcast hx
  obtain rfl := hthreads.2.1 p state rfl rfl
  exact ⟨st.next, (yields_build_ok hbuild).2.1, le_next_of_yields_build hbuild⟩

theorem SubmitRun.startsFrom {h' : List Exchange} {r : Except RelayError PendingTx}
    (hr : SubmitRun p msgs memo s waitSignal (h ++ h') r) (hthreads : Threads p.key c h) :
    StartsFrom c h := by
  constructor
  · intro q st hmem
    obtain ⟨h₁, h₂, rfl⟩ := List.append_of_mem hmem
    rw [List.append_cons] at hthreads
    exact SubmitRun.found (by simpa using hr) (threads_append_iff.mp hthreads).1
  · intro tx htx
    obtain ⟨x, hmem, hx⟩ := List.mem_filterMap.mp htx
    obtain ⟨h₁, h₂, rfl⟩ := List.append_of_mem hmem
    exact SubmitRun.signed (by simpa using hr) hx (threads_append_iff.mp hthreads).1

/-- A guarded submission starts from the cache that was left, even if it is dropped on its way. -/
theorem guarded_startsFrom {r : Except RelayError PendingTx}
    (hg : Attempt.Guarded s (p.submit msgs memo s waitSignal) g r)
    (hthreads : Threads p.key c g) : StartsFrom c g := by
  cases hg with
  | fired _ => exact ⟨by simp, by simp [Exchange.broadcast?]⟩
  | @finished g' _ hsubmit =>
      have hrun := yields_submit hsubmit
      rw [← List.append_nil g'] at hrun
      have hthreads' : Threads p.key c g' := hthreads.2
      obtain ⟨hfound, hsigned⟩ := hrun.startsFrom hthreads'
      exact ⟨by simpa using hfound, by simpa [Exchange.broadcast?] using hsigned⟩
  | @dropped m g' q next _ hreach =>
      -- the dropped submission could have gone on to its end
      obtain ⟨a⟩ := q.nonempty_answer
      obtain ⟨g'', b, hrest⟩ := (next a).exists_yields
      have hrun := yields_submit (hreach.append (.step (.ask a) hrest))
      have hthreads' : Threads p.key c g' := (threads_append_iff.mp hthreads.2).1
      obtain ⟨hfound, hsigned⟩ := hrun.startsFrom hthreads'
      refine ⟨by simpa using hfound, fun tx htx => ?_⟩
      obtain ⟨x, hmem, hx⟩ := List.mem_filterMap.mp htx
      obtain rfl | hmem := List.mem_cons.mp hmem
      · cases hx
      obtain hmem | hmem := List.mem_append.mp hmem
      · exact hsigned tx (List.mem_filterMap.mpr ⟨x, hmem, hx⟩)
      · rw [List.mem_singleton.mp hmem] at hx
        exact hrun.signed hx hthreads'

theorem not_names_cancelled (k : UInt64) : ¬ RelayError.cancelled.Names k :=
  fun hnames => absurd hnames.1 (by decide +kernel)

/-- A submission that fails with a mismatch leaves the sequence that it names in the cache. -/
theorem guarded_leaves_named {k : UInt64}
    (hg : Attempt.Guarded s (p.submit msgs memo s waitSignal) g (.error e)) (he : e.Names k) :
    (cacheAfter p.key c g).next = k := by
  cases hg with
  | fired _ => exact absurd he (not_names_cancelled k)
  | dropped _ _ => exact absurd he (not_names_cancelled k)
  | finished hsubmit =>
      cases yields_submit hsubmit with
      | waited _ => exact absurd he (not_names_cancelled k)
      | @held body state st _ hl =>
          obtain ⟨_, _, hnamed, _⟩ := hl.settles
          have hcache : cacheAfter p.key c (.answered .rest () :: .answered .rest () ::
              .answered (.acquire p) state :: (body ++ [.answered (.release p st) ()])) = st := by
            rw [cacheAfter_cons, cacheAfter_cons, cacheAfter_cons, cacheAfter_append]
            simp [Exchange.leaves]
          rw [hcache]
          exact hnamed k he

theorem threads_of_lockFree (hh : ∀ x ∈ h, x.request.LockFree) (k : KeyId) (st : SequenceState) :
    Threads k st h := by
  induction h with
  | nil => trivial
  | cons x h ih =>
      obtain ⟨hx, hrest⟩ := List.forall_mem_cons.mp hh
      refine ⟨fun q st' heq _ => ?_, ?_⟩
      · rw [heq] at hx
        exact hx.elim
      · rw [Exchange.leaves_of_lockFree hx]
        exact ih hrest

theorem cacheAfter_interlude (k : KeyId) (st : SequenceState) (policy : RetryPolicy)
    (scope : RetryScope) (n m : Nat) (e : RelayError) :
    cacheAfter k st (policy.interlude scope n e ++ [.answered (.attempting m) ()]) = st := by
  rw [RetryPolicy.interlude, cacheAfter_append, cacheAfter_append,
    cacheAfter_of_lockFree announcement_lockFree]
  rfl

section Refused

variable {anys : List Any} (hanys : msgs.mapM Outgoing.toAny = .ok anys)
  (hmode : p.config.signMode = .direct)
  (hsize : 2 * (TxFactory.body { p.factory with memo := memo } anys).encode.length +
    32 * p.publicKey.length + 16 * (Bytes.ofText p.config.gasPrice.denom).length < 1 <<< 61)

include hanys hmode hsize

/-- Whatever the cache is, the chain can refuse a submission with any code but zero. -/
theorem exists_refused_submission (c : SequenceState) (codespace log : String) {code : UInt32}
    (hcode : code ≠ 0) : ∃ g, Threads p.key c g ∧
      (Attempt.guard s (p.submit msgs memo s s)).run.Yields g
        (.error (.ofTxCode codespace code log)) := by
  obtain ⟨st, body, hlocked, hbody⟩ : ∃ st, Passes Request.Sized (p.submitLocked c msgs memo s s)
      (SequenceState.afterFailure st (.ofTxCode codespace code log),
        .error (.ofTxCode codespace code log)) :=
    exists_passes_refusal hanys hmode hsize c codespace log hcode
  let e := RelayError.ofTxCode codespace code log
  have hlock : (Attempt.guard s (Attempt.request (.acquire p))).run.Yields
      [.answered .rest (), .answered (.acquire p) c] (.ok c) :=
    Attempt.yields_guard_request s (.acquire p) c
  have hsubmit : (p.submit msgs memo s s).run.Yields (.answered .rest () ::
      .answered (.acquire p) c :: (body ++ [.answered (.release p (st.afterFailure e)) ()]))
      (.error e) := by
    refine Attempt.yields_bind_iff.mpr (.inr ⟨_, c, _, rfl, hlock, ?_⟩)
    refine Attempt.yields_bind_iff.mpr
      (.inr ⟨body, (st.afterFailure e, .error e), _, rfl, ?_, ?_⟩)
    · exact Attempt.yields_lift_iff.mpr ⟨_, hlocked, rfl⟩
    · exact Attempt.yields_request_bind_iff.mpr
        ⟨(), [], rfl, Attempt.yields_ofExcept_iff.mpr ⟨rfl, rfl⟩⟩
  have hfree : ∀ x ∈ body, x.request.LockFree :=
    fun x hx => ((yields_submitLocked hlocked).holds x hx).lockFree
  refine ⟨_, ?_, Attempt.yields_guard_of hsubmit ?_⟩
  · refine ⟨nofun, nofun, ?_, threads_append_iff.mpr ⟨threads_of_lockFree hfree _ _, ?_⟩⟩
    · intro q st' hx _
      cases hx
      rfl
    · exact ⟨nofun, trivial⟩
  · simp only [List.forall_mem_cons, List.forall_mem_append]
    exact ⟨trivial, trivial, fun x hx => (hbody x hx).1, trivial, by simp⟩

end Refused

theorem exists_run_of_submission {x : Except RelayError PendingTx}
    (hg : (Attempt.guard s (p.submit msgs memo s s)).run.Yields g x) :
    ∃ t r, (p.config.retry.submission s (p.submit msgs memo s s)).run.Yields
      (.answered (.attempting 1) () :: (g ++ t)) r := RetryPolicy.exists_yields_run hg

/-- In a loop of submissions one that fails with a sequence mismatch leaves the sequence that the
mismatch names in the cache.  If the mismatch is definitive the loop ends with it, and nothing comes
after.  Otherwise another submission follows as long as the policy allows one, which starts from that
cache if nobody else took the lock, unless a signal stops the loop in the pause before it. -/
theorem resubmits_unless_definitive {r : Except RelayError PendingTx}
    (hy : (p.config.retry.submission s (p.submit msgs memo s s)).run.Yields h r)
    (hsubmitted : p.Submitted msgs memo s h before n g (.error e) t)
    (hmismatch : e.isSequenceMismatch = true) :
    (∀ c k, e.Names k → (cacheAfter p.key c (before ++ g)).next = k) ∧
      (e.Definitive → t = [] ∧ r = .error e) ∧
      (¬ e.Definitive → n < max 1 p.config.retry.maxAttempts →
        (∃ before' g' x t', p.Submitted msgs memo s h before' (n + 1) g' x t' ∧
          ∀ c, Threads p.key c h → StartsFrom (cacheAfter p.key c (before ++ g)) g') ∨
        s ≠ none ∧ r = .error .cancelled) ∧
      (¬ e.Definitive → max 1 p.config.retry.maxAttempts ≤ n →
        t = [] ∧ ∃ errors, r = .error (p.config.retry.exhausted n errors e)) := by
  have hfinal := RelayError.isFinal_submission_iff hmismatch
  have hpassing (hnot : ¬ e.Definitive) : RetryScope.submission.isFinal e = false := by
    rwa [← hfinal, Bool.not_eq_true] at hnot
  refine ⟨fun c k he => ?_, fun hdefinitive => ?_, fun hnot hn => ?_, fun hnot hn => ?_⟩
  · rw [cacheAfter_append]
    exact guarded_leaves_named (Attempt.yields_guard hsubmitted.yields) he
  · exact hsubmitted.ends_of_isFinal hy (hfinal.mpr hdefinitive)
  · obtain ⟨g', x, t', hnext⟩ | hstopped := hsubmitted.followed hy (hpassing hnot) hn
    · refine .inl ⟨_, g', x, t', hnext, fun c hthreads => ?_⟩
      rw [hnext.eq_append] at hthreads
      obtain ⟨hthreads', _⟩ := threads_append_iff.mp (threads_append_iff.mp hthreads).2
      have hstarts := guarded_startsFrom (Attempt.yields_guard hnext.yields) hthreads'
      rwa [← List.append_assoc, cacheAfter_append, cacheAfter_interlude] at hstarts
    · exact .inr hstopped
  · exact hsubmitted.ends_of_attempts_le hy (hpassing hnot) hn

/-- Two chains refuse the sequence that a cache holds and name another one, the first under a code of
its own and the second under the code for a wrong sequence.  Of the two submissions that the policy
allows one loop makes a single one, the other both. -/
theorem resubmits_unless_definitive_refused :
    (∃ g h, (twice.config.retry.submission none (twice.submit [] "" none none)).run.Yields h
        (.error (.ofTxCode "wasm" 5 (mismatchLog 7 5))) ∧
      twice.Submitted [] "" none h [.answered (.attempting 1) ()] 1 g
        (.error (.ofTxCode "wasm" 5 (mismatchLog 7 5))) [] ∧
      (cacheAfter twice.key ⟨5, 0⟩ ([.answered (.attempting 1) ()] ++ g)).next = 7) ∧
    ∃ g h t before g' x t' r,
      (twice.config.retry.submission none (twice.submit [] "" none none)).run.Yields h r ∧
      twice.Submitted [] "" none h [.answered (.attempting 1) ()] 1 g
        (.error (.ofTxCode "sdk" 32 (mismatchLog 7 5))) t ∧
      twice.Submitted [] "" none h before 2 g' x t' := by
  constructor
  · obtain ⟨g, _, hg⟩ := @exists_refused_submission twice [] "" none [] rfl rfl (by decide +kernel)
      ⟨5, 0⟩ "wasm" (mismatchLog 7 5) 5 (by decide)
    obtain ⟨t, r, hy⟩ := exists_run_of_submission hg
    have hnames := RelayError.names_ofTxCode_mismatchLog "wasm" 5 7 5
    have hdefinitive : (RelayError.ofTxCode "wasm" 5 (mismatchLog 7 5)).Definitive :=
      RelayError.definitive_ofTxCode_iff.mpr (by decide)
    obtain ⟨hcache, hends, _⟩ := resubmits_unless_definitive hy (.first rfl hg) hnames.1
    obtain ⟨rfl, rfl⟩ := hends hdefinitive
    exact ⟨g, _, hy, .first rfl hg, hcache ⟨5, 0⟩ 7 hnames⟩
  · obtain ⟨g, _, hg⟩ := @exists_refused_submission twice [] "" none [] rfl rfl (by decide +kernel)
      ⟨5, 0⟩ "sdk" (mismatchLog 7 5) 32 (by decide)
    obtain ⟨t, r, hy⟩ := exists_run_of_submission hg
    have hnames := RelayError.names_ofTxCode_mismatchLog "sdk" 32 7 5
    have hnot : ¬ (RelayError.ofTxCode "sdk" 32 (mismatchLog 7 5)).Definitive :=
      RelayError.definitive_ofTxCode_iff.not.mpr (by decide)
    obtain ⟨_, _, hfollows, _⟩ := resubmits_unless_definitive hy (.first rfl hg) hnames.1
    obtain ⟨before, g', x, t', hnext, _⟩ | ⟨hsignal, _⟩ := hfollows hnot (by decide)
    · exact ⟨g, _, t, before, g', x, t', r, hy, .first rfl hg, hnext⟩
    · exact absurd rfl hsignal

end PacketRelay.Provider
