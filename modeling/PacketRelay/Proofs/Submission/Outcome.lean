import PacketRelay.Proofs.Error.Mismatch
import PacketRelay.Proofs.Submission.Lookup
import PacketRelay.Proofs.Submission.Recovery
import PacketRelay.Proofs.Submission.Waiting

/-!
# The state that a submission leaves

However a submission ends, the sequence cache and the account number that it leaves are determined
by what it found, by the account look-up if there was one, and by its error.
-/

namespace PacketRelay

open Program

/-- The node took a transaction into its mempool. -/
def Exchange.IsAcceptance : Exchange → Prop
  | .answered (.call _ (.broadcast _)) (.ok a) => a.code = 0
  | _ => False

/-- The exchange takes a lock or gives one back. -/
def Exchange.MovesLock : Exchange → Prop
  | .answered (.acquire _) _ | .answered (.release ..) _ => True
  | _ => False

theorem Exchange.not_movesLock {x : Exchange} (hx : x.request.LockFree) : ¬ x.MovesLock := by
  unfold MovesLock
  split
  · exact fun _ => hx
  · exact fun _ => hx
  · exact id

theorem Exchange.IsAcceptance.exists_eq {x : Exchange} (hx : x.IsAcceptance) :
    ∃ p tx a, x = .answered (.call p (.broadcast tx)) (.ok a) ∧ a.code = 0 := by
  unfold IsAcceptance at hx
  split at hx
  · next p tx a => exact ⟨p, tx, a, rfl, hx⟩
  · exact hx.elim

/-- The state with the account that a history looked up, if it did: the number is replaced, and the
sequence moves forward. -/
def SequenceState.afterLookup (s : SequenceState) (h : List Exchange) : SequenceState :=
  match lookedUp? h with
  | some (number, sequence) => ⟨max s.next sequence, number⟩
  | none => s

namespace Provider

variable {p : Provider} {s waitSignal : Signal} {msgs : List Outgoing} {memo : String}
  {state st : SequenceState} {h : List Exchange}

/-- What a submission that found `state` under the lock leaves there.  Accepted, it moves past the
sequence that it used.  Otherwise the look-up stays, and a mismatch that names a sequence puts that
one into the cache. -/
def Settles (p : Provider) (state : SequenceState) (h : List Exchange) (st : SequenceState) :
    Except RelayError PendingTx → Prop
  | .ok pending =>
    pending.sequence = (state.afterLookup h).next ∧ (lookedUp? h).isSome ∧
      (∃ x ∈ h, x.Accepts p.key pending.sequence) ∧
      st = (state.afterLookup h).advance (pending.sequence + 1)
  | .error e =>
    (∀ x ∈ h, ¬ x.IsAcceptance) ∧ st.accountNumber = (state.afterLookup h).accountNumber ∧
      (∀ n, e.Names n → st.next = n) ∧
      ((∀ n, ¬ e.Names n) → st.next = (state.afterLookup h).next)

/-- The lock was never taken, or it was taken once and given back with a settled state. -/
inductive Leaves (p : Provider) : List Exchange → Except RelayError PendingTx → Prop where
  | untouched {h : List Exchange} :
    (∀ x ∈ h, ¬ x.MovesLock) → Leaves p h (.error .cancelled)
  | settled {before h : List Exchange} {state st : SequenceState}
      {r : Except RelayError PendingTx} :
    (∀ x ∈ before, ¬ x.MovesLock) → (∀ x ∈ h, ¬ x.MovesLock) → p.Settles state h st r →
      Leaves p (before ++ .answered (.acquire p) state :: (h ++ [.answered (.release p st) ()])) r

/-- A build leaves what it found with what it looked up, and builds nothing without a look-up. -/
theorem yields_build_state {r : Except RelayError BuiltTx}
    (hy : (p.build state msgs memo s).Yields h (st, r)) :
    st = state.afterLookup h ∧ (∀ built, r = .ok built → (lookedUp? h).isSome) := by
  obtain ⟨e, hprepare, rfl, rfl⟩ | ⟨f, h₁, h₂, rfl, hprepare, rfl, hassemble⟩ := yields_build hy
  · obtain ⟨_, _, hok, _⟩ | ⟨_, _, hfew⟩ := yields_prepare_shown hprepare
    · cases hok
    · have hnone : lookedUp? h = none := by
        rw [lookedUp?, List.getElem?_eq_none hfew]
        rfl
      rw [SequenceState.afterLookup, hnone]
      refine ⟨rfl, ?_⟩
      intro built hbuilt
      cases hbuilt
  · obtain ⟨number, sequence, hok, hlooked, _⟩ | ⟨_, he, _⟩ := yields_prepare_shown hprepare
    · have hlater : lookedUp? (h₁ ++ h₂) = some (number, sequence) := by
        rw [lookedUp?_append fun x hx => (hassemble.asks asks_assemble x hx).not_asksAccount, hlooked]
      obtain rfl := Except.ok.inj hok
      rw [SequenceState.afterLookup, hlater]
      exact ⟨rfl, fun _ _ => rfl⟩
    · cases he

theorem not_isAcceptance_of_build {r : Except RelayError BuiltTx}
    (hy : (p.build state msgs memo s).Yields h (st, r)) : ∀ x ∈ h, ¬ x.IsAcceptance := by
  intro x hx hacc
  obtain ⟨q, tx, a, rfl, _⟩ := hacc.exists_eq
  exact hy.asks asks_build _ hx

theorem settles_error {st₀ : SequenceState} (hst : st₀ = state.afterLookup h)
    (hh : ∀ x ∈ h, ¬ x.IsAcceptance) (e : RelayError) :
    p.Settles state h (st₀.afterFailure e) (.error e) := by
  subst hst
  refine ⟨hh, ?_, ?_, ?_⟩
  · unfold SequenceState.afterFailure
    split
    · exact SequenceState.accountNumber_resync _ _
    · rfl
  · intro n hn
    rw [RelayError.afterFailure_of_names hn]
  · intro hnone
    rw [RelayError.afterFailure_of_not_names hnone]

theorem LockedRun.settles {r : Except RelayError PendingTx}
    (hl : LockedRun p state msgs memo s waitSignal h st r) : p.Settles state h st r := by
  cases hl with
  | unbuilt hbuild =>
      exact settles_error (yields_build_state hbuild).1 (not_isAcceptance_of_build hbuild) _
  | @failed hb hs st₀ built e hbuild hsend =>
      have hlookup : lookedUp? (hb ++ hs) = lookedUp? hb :=
        lookedUp?_append fun x hx => (hsend.delivers x hx).not_asksAccount
      refine settles_error ?_ ?_ e
      · rw [SequenceState.afterLookup, hlookup, ← SequenceState.afterLookup]
        exact (yields_build_state hbuild).1
      · intro x hx hacc
        obtain hx | hx := List.mem_append.mp hx
        · exact not_isAcceptance_of_build hbuild x hx hacc
        · obtain ⟨q, tx, a, rfl, hcode⟩ := hacc.exists_eq
          obtain ⟨_, _, _, hok⟩ := hsend.accepted_of_mem hx hcode
          cases hok
  | @accepted hb hs st₀ built pending hbuild hsend =>
      have hlookup : lookedUp? (hb ++ hs) = lookedUp? hb :=
        lookedUp?_append fun x hx => (hsend.delivers x hx).not_asksAccount
      obtain ⟨hst, hfound⟩ := yields_build_state hbuild
      obtain ⟨hsequence, hsigned, _⟩ := yields_build_ok hbuild
      have hstate : state.afterLookup (hb ++ hs) = st₀ := by
        rw [SequenceState.afterLookup, hlookup, ← SequenceState.afterLookup, hst]
      refine ⟨?_, ?_, ?_, ?_⟩
      · rw [hstate]
        exact hsequence
      · rw [hlookup]
        exact hfound built rfl
      · cases hsend with
        | @accepted a job hcode =>
            refine ⟨.answered (.call p (.broadcast built.bytes)) (.ok a), by simp, p, built.bytes, a,
              rfl, hcode, rfl, ?_⟩
            rw [hsequence]
            exact hsigned
      · rw [hstate]

theorem SubmitRun.leaves {r : Except RelayError PendingTx}
    (hr : SubmitRun p msgs memo s waitSignal h r) (before : List Exchange)
    (hbefore : ∀ x ∈ before, ¬ x.MovesLock) : p.Leaves (before ++ h) r := by
  have hrest : ¬ (Exchange.answered .rest ()).MovesLock := not_false
  cases hr with
  | waited hg =>
      refine .untouched fun x hx => ?_
      obtain hx | hx := List.mem_append.mp hx
      · exact hbefore x hx
      · obtain ⟨_, n, _, rfl | rfl⟩ := hg.request_error
        · rw [List.mem_singleton.mp hx]
          exact not_false
        · simp only [List.mem_cons, List.not_mem_nil, or_false] at hx
          obtain rfl | rfl := hx
          · exact hrest
          · exact not_false
  | @held body state st _ hl =>
      have hsettled : p.Leaves ((before ++ [.answered .rest ()]) ++ .answered (.acquire p) state ::
          (body ++ [.answered (.release p st) ()])) r := by
        refine .settled ?_ (fun x hx => Exchange.not_movesLock (hl.holds x hx).lockFree) hl.settles
        intro x hx
        obtain hx | hx := List.mem_append.mp hx
        · exact hbefore x hx
        · rw [List.mem_singleton.mp hx]
          exact hrest
      simpa using hsettled

/-- A submission leaves a determined state, whether it runs to its end or is itself guarded and
dropped at whatever request it waits for. -/
theorem submission_settles_state (p : Provider) (msgs : List Outgoing) (memo : String)
    (s waitSignal : Signal) :
    (∀ h r, (p.submit msgs memo s waitSignal).run.Yields h r → p.Leaves h r) ∧
    ∀ h r, (Attempt.guard s (p.submit msgs memo s waitSignal)).run.Yields h r →
      (∀ x ∈ h, x.Timely) → p.Leaves h r := by
  constructor
  · intro h r hy
    exact (yields_submit hy).leaves [] (by simp)
  · intro h r hy hh
    obtain ⟨n, rfl, rfl⟩ | ⟨h', rfl, hy'⟩ := guarded_submit_timely hy hh
    · refine .untouched fun x hx => ?_
      rw [List.mem_singleton.mp hx]
      exact not_false
    · refine (yields_submit hy').leaves [.answered .rest ()] fun x hx => ?_
      rw [List.mem_singleton.mp hx]
      exact not_false

/-- The cache is ahead of a chain that names the sequence it expects, and a signal fires while the
lock is not free. -/
theorem submission_settles_state_refused_dropped :
    (∃ h e, (twice.submit [] "" none none).run.Yields h (.error e) ∧ e.Names 3 ∧
      twice.Leaves h (.error e)) ∧
    ∃ h, (Attempt.guard (some 0) (twice.submit [] "" (some 0) none)).run.Yields h
      (.error .cancelled) ∧ (∀ x ∈ h, x.Timely) ∧ twice.Leaves h (.error .cancelled) := by
  constructor
  · have hnil : twice.Obeying 3 ⟨10, 0⟩ [] := ⟨by simp, trivial⟩
    obtain ⟨h, r, hy, hobeys, hthreads⟩ :=
      exists_yields_within Obeying.exists_answer (twice.submit [] "" none none).run hnil
    rw [List.nil_append] at hobeys hthreads
    have hleaves := (submission_settles_state twice [] "" none none).1 h r hy
    cases yields_submit hy with
    | waited hg =>
        obtain ⟨_, n, hsignal, _⟩ := hg.request_error
        cases hsignal
    | @held body state st _ hl =>
        obtain rfl := hthreads.2.1 twice state rfl rfl
        obtain ⟨_, hnext, pending, rfl⟩ | ⟨_, _, e, rfl, hexpects⟩ :=
          hl.recovers (by decide) rfl rfl fun x hx => hobeys x (by simp [hx])
        · obtain hle | ⟨_, _, hr, _⟩ := hl.next
          · rw [hnext] at hle
            exact absurd hle (by decide)
          · cases hr
        · exact ⟨_, e, hy, RelayError.names_iff.mpr ⟨hexpects.mismatch, hexpects.names⟩, hleaves⟩
  · have hy : (Attempt.guard (some 0) (twice.submit [] "" (some 0) none)).run.Yields
        [.answered .rest (), .answered .rest (), .stopped 0 (.acquire twice)]
        (.error .cancelled) := by
      rw [Attempt.guard_run_eq]
      refine reaches_watch (reaches_watch (s := some 0) (r := .rest) ?_)
      exact .step (.stop (n := 0)) (.refl _)
    have hh : ∀ x ∈ [Exchange.answered .rest (), .answered .rest (), .stopped 0 (.acquire twice)],
        x.Timely := by simp [Exchange.Timely, Request.Waits]
    exact ⟨_, hy, hh, (submission_settles_state twice [] "" (some 0) none).2 _ _ hy hh⟩

end Provider

end PacketRelay
