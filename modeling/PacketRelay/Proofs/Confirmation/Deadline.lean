import PacketRelay.Proofs.Confirmation.Rounds

/-!
# The deadline of a wait

The deadline is looked at when a pause ends and not while a look-up is under way.  A pause never
goes beyond it, and every look-up is made before it, but the wait lasts until the last look-up is
answered, however long that takes, and takes what it found.
-/

namespace PacketRelay.Provider

open Program Timed

variable {q : Provider} {hash : String} {timeout : Duration} {deadline interval : Nat} {s : Signal}

/-- What a wait can be waiting for at a time: a pause that is over by the deadline, or a look-up
that is made before it. -/
def Awaits (q : Provider) (hash : String) (deadline clock : Nat) : Request → Prop
  | .pause length => length = 0 ∨ clock + length ≤ deadline
  | .call q' (.tx hash') => q' = q ∧ hash' = hash ∧ clock < deadline
  | _ => False

/-- The exchange is answered at once, or is one that a wait can be waiting for. -/
def Due (q : Provider) (hash : String) (deadline clock : Nat) (x : Timed) : Prop :=
  x.exchange.request.Lasts → Awaits q hash deadline clock x.exchange.request

theorem throughout_pausing {now length : Nat} (hlength : length = 0 ∨ now + length ≤ deadline) :
    Throughout (q.Due hash deadline) now (pausing now length) :=
  ⟨False.elim, False.elim, fun _ => hlength, trivial⟩

theorem throughout_lookingUp {now millis : Nat} {found : Except RelayError (Option TxResult)}
    (hnow : now < deadline) :
    Throughout (q.Due hash deadline) now (lookingUp q hash found millis) :=
  ⟨False.elim, fun _ => ⟨rfl, rfl, hnow⟩, trivial⟩

theorem throughout_counting {now : Nat} (found : Except RelayError (Option TxResult)) :
    Throughout (q.Due hash deadline) now (counting q found) := by
  cases found with
  | error e => exact ⟨False.elim, trivial⟩
  | ok found => trivial

theorem Rounds.due {now : Nat} {ls : List Lookup} {h : List Timed}
    {r : Except RelayError TxResult}
    (hr : Rounds q hash timeout interval deadline now ls h r) :
    Throughout (q.Due hash deadline) now h := by
  induction hr with
  | timedOut hlast => exact throughout_pausing (by omega)
  | decided hbefore _ =>
      rw [throughout_append_iff, elapsed_pausing]
      exact ⟨throughout_pausing (.inr (by omega)), throughout_lookingUp hbefore⟩
  | @again now millis found ls h r hbefore _ _ ih =>
      simp only [throughout_append_iff, elapsed_pausing, elapsed_lookingUp, elapsed_counting,
        Nat.add_zero]
      exact ⟨throughout_pausing (.inr (by omega)), throughout_lookingUp hbefore,
        throughout_counting found, ih⟩

/-- Whatever part of a run there was, what the wait waits for then is no pause beyond the
deadline. -/
theorem awaits_of_reachesFrom {start : Nat} {h : List Timed}
    {p : Program (Except RelayError TxResult)} {r : Request}
    (hpoll : 0 < q.config.pollInterval.millis)
    (hp : (q.awaitInclusion hash timeout s).run.ReachesFrom start h p)
    (hh : ∀ x ∈ h, x.exchange.Spared s) (hnext : p.next? = some r) (hlasts : r.Lasts) :
    Awaits q hash (start + timeout.millis) (start + elapsed h) r := by
  -- rounds are known of whole runs only, so the part of a run goes on to the end of one
  obtain ⟨a, millis, h', b, hy⟩ := hp.exists_yieldsSpared hh hnext
  obtain ⟨ls, h'', heq, hls⟩ := (yieldsSpared_awaitInclusion_iff hpoll).mp hy
  have hdue : Throughout (q.Due hash (start + timeout.millis)) start
      (h ++ ⟨.answered r a, millis⟩ :: h') := by
    rw [heq]
    exact ⟨False.elim, hls.due⟩
  exact (throughout_append_iff.mp hdue).2.1 hlasts

/-- A look-up that decides may take any time, before or after the deadline. -/
theorem exists_yieldsSpared_decided {start millis : Nat}
    {found : Except RelayError (Option TxResult)} {r : Except RelayError TxResult}
    (hpoll : 0 < q.config.pollInterval.millis)
    (hbefore : q.config.pollInterval.millis < timeout.millis)
    (hjudge : judgeLookup found = some r) :
    ∃ h, (q.awaitInclusion hash timeout s).run.YieldsSpared s start h r ∧
      lookups start h = [⟨start + q.config.pollInterval.millis, millis, found⟩] ∧
      elapsed h = q.config.pollInterval.millis + millis := by
  have hround : Rounds q hash timeout q.config.pollInterval.millis (start + timeout.millis) start
      [⟨start + q.config.pollInterval.millis, millis, found⟩]
      (pausing start q.config.pollInterval.millis ++ lookingUp q hash found millis) r :=
    .decided (by omega) hjudge
  refine ⟨_, (yieldsSpared_awaitInclusion_iff hpoll).mpr ⟨_, _, rfl, hround⟩, hround.lookups_eq, ?_⟩
  rw [elapsed_cons, elapsed_append, elapsed_pausing, elapsed_lookingUp]
  exact Nat.zero_add _

/-- Without a signal a wait is never in a pause beyond its deadline.  A look-up that is under way at
the deadline is waited for all the same, and what it finds counts: the wait lasts longer than its
time exactly if the last look-up is answered after the deadline, which may be as late as it likes. -/
theorem awaitInclusion_outlasts_deadline {start : Nat} (hpoll : 0 < q.config.pollInterval.millis) :
    (∀ h p r, (q.awaitInclusion hash timeout s).run.ReachesFrom start h p →
      (∀ x ∈ h, x.exchange.Spared s) → p.next? = some r → r.Lasts →
      Awaits q hash (start + timeout.millis) (start + elapsed h) r) ∧
    (∀ h r, (q.awaitInclusion hash timeout s).run.YieldsSpared s start h r →
      (∀ l ∈ lookups start h, l.made < start + timeout.millis) ∧
      (∀ l ∈ (lookups start h).dropLast, judgeLookup l.found = none) ∧
      (timeout.millis < elapsed h ↔
        start + timeout.millis < Lookup.heard start (lookups start h)) ∧
      ((∃ l, (lookups start h).getLast? = some l ∧ judgeLookup l.found = some r ∧
          start + elapsed h = Lookup.heard start (lookups start h)) ∨
        (∀ l ∈ lookups start h, judgeLookup l.found = none) ∧
          r = .error (.confirmationTimeout hash timeout) ∧
          start + elapsed h =
            max (start + timeout.millis) (Lookup.heard start (lookups start h)))) ∧
    (q.config.pollInterval.millis < timeout.millis →
      ∀ found r, judgeLookup found = some r → ∀ millis,
        ∃ h, (q.awaitInclusion hash timeout s).run.YieldsSpared s start h r ∧
          lookups start h = [⟨start + q.config.pollInterval.millis, millis, found⟩] ∧
          elapsed h = q.config.pollInterval.millis + millis) := by
  refine ⟨?_, ?_, ?_⟩
  · intro h p r
    exact awaits_of_reachesFrom hpoll
  · intro h r hy
    obtain ⟨ls, h', rfl, hrounds⟩ := (yieldsSpared_awaitInclusion_iff hpoll).mp hy
    have hlookups : lookups start (instant (.answered .now start) :: h') = ls := hrounds.lookups_eq
    have helapsed : elapsed (instant (.answered .now start) :: h') = elapsed h' := Nat.zero_add _
    obtain ⟨hbefore, hnone⟩ := hrounds.lookups_before
    have hends := hrounds.ends
    rw [hlookups, helapsed]
    refine ⟨hbefore, hnone, ?_, hends⟩
    -- a wait that times out lasts to the later of the deadline and the last answer
    obtain ⟨_, _, _, hend⟩ | ⟨_, _, hend⟩ := hends <;> omega
  · intro hbefore found r hjudge millis
    exact exists_yieldsSpared_decided hpoll hbefore hjudge

/-- A provider that looks up every 100 milliseconds and waits for a second. -/
def patient : Provider :=
  ⟨0, ⟨"chain-1", "key", "cosmos", 1, ⟨0, "stake"⟩, 0, 0, .direct, .ofSeconds 1, .ofMillis 100,
    ⟨1, .ofMillis 10, true⟩⟩, []⟩

/-- The first look-up is answered after five seconds, and the wait for one second ends only then, with
what it found. -/
theorem awaitInclusion_outlasts_deadline_slow_node : ∃ h,
    (patient.awaitInclusion "AB" (.ofSeconds 1) none).run.YieldsSpared none 0 h (.ok default) ∧
      lookups 0 h = [⟨100, 5000, .ok (some default)⟩] ∧ elapsed h = 5100 := by
  obtain ⟨_, _, hdecided⟩ :=
    @awaitInclusion_outlasts_deadline patient "AB" (.ofSeconds 1) none 0 (by decide)
  have hinterval : patient.config.pollInterval.millis = 100 := by decide
  have hbefore : patient.config.pollInterval.millis < Duration.millis (.ofSeconds 1) := by decide
  have hrun := hdecided hbefore (.ok (some default)) (.ok default) rfl 5000
  rwa [hinterval] at hrun

end PacketRelay.Provider
