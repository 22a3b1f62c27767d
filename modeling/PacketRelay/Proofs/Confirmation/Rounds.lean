import PacketRelay.Confirmation
import PacketRelay.Proofs.Program.Clock

/-!
# Rounds of a wait

A wait goes in rounds: a pause, then a look-up.  The deadline is looked at only when a pause begins,
so the last round is one whose pause would reach the deadline, or one whose look-up decides.
-/

namespace PacketRelay

open Program Timed

/-- A look-up of a transaction: when it was made, how long the answer took, and what it was. -/
structure Lookup where
  made : Nat
  millis : Nat
  found : Except RelayError (Option TxResult)

namespace Lookup

def answered (l : Lookup) : Nat := l.made + l.millis

/-- When the last look-up was answered, if there was one from a time on. -/
def heard : (now : Nat) → List Lookup → Nat
  | now, [] => now
  | _, l :: ls => heard l.answered ls

end Lookup

/-- The look-up that an exchange is. -/
def Timed.lookup? (clock : Nat) : Timed → Option Lookup
  | ⟨.answered (.call _ (.tx _)) found, millis⟩ => some ⟨clock, millis, found⟩
  | _ => none

/-- The look-ups of a history, in order. -/
def Timed.lookups : Nat → List Timed → List Lookup
  | _, [] => []
  | clock, x :: h => (x.lookup? clock).toList ++ lookups (clock + x.millis) h

theorem Timed.lookups_append (clock : Nat) (h h' : List Timed) :
    lookups clock (h ++ h') = lookups clock h ++ lookups (clock + elapsed h) h' := by
  induction h generalizing clock with
  | nil => rfl
  | cons x h ih =>
      simp only [List.cons_append, lookups, ih, elapsed_cons, List.append_assoc, Nat.add_assoc]

namespace Provider

variable {q : Provider} {hash : String} {timeout : Duration} {deadline interval : Nat} {s : Signal}

/-- What is exchanged in a pause, and in a look-up. -/
def pausing (now length : Nat) : List Timed :=
  [instant (.answered .now now), instant (.answered .rest ()),
    ⟨.answered (.pause length) (), length⟩]

def lookingUp (q : Provider) (hash : String) (found : Except RelayError (Option TxResult))
    (millis : Nat) : List Timed :=
  [instant (.answered .rest ()), ⟨.answered (.call q (.tx hash)) found, millis⟩]

/-- A look-up that failed is counted. -/
def counting (q : Provider) : Except RelayError (Option TxResult) → List Timed
  | .error _ => [instant (.answered (.record q .rpcError) ())]
  | .ok _ => []

/-- The rounds of a wait from a time on, with their look-ups, what is exchanged, and the result. -/
inductive Rounds (q : Provider) (hash : String) (timeout : Duration) (interval deadline : Nat) :
    (now : Nat) → List Lookup → List Timed → Except RelayError TxResult → Prop where
  | timedOut {now : Nat} : deadline ≤ now + interval →
      Rounds q hash timeout interval deadline now [] (pausing now (min interval (deadline - now)))
        (.error (.confirmationTimeout hash timeout))
  | decided {now millis : Nat} {found : Except RelayError (Option TxResult)}
      {r : Except RelayError TxResult} :
    now + interval < deadline → judgeLookup found = some r →
      Rounds q hash timeout interval deadline now [⟨now + interval, millis, found⟩]
        (pausing now interval ++ lookingUp q hash found millis) r
  | again {now millis : Nat} {found : Except RelayError (Option TxResult)} {ls : List Lookup}
      {h : List Timed} {r : Except RelayError TxResult} :
    now + interval < deadline → judgeLookup found = none →
      Rounds q hash timeout interval deadline (now + interval + millis) ls h r →
      Rounds q hash timeout interval deadline now (⟨now + interval, millis, found⟩ :: ls)
        (pausing now interval ++ (lookingUp q hash found millis ++ (counting q found ++ h))) r

def countLookup (q : Provider) : Except RelayError (Option TxResult) → Program Unit
  | .error _ => request (.record q .rpcError)
  | .ok _ => done ()

/-- What follows a look-up. -/
def heedLookup (q : Provider) (hash : String) (timeout : Duration) (deadline : Nat) (s : Signal)
    (rounds : Nat) (found : Except RelayError (Option TxResult)) :
    Program (Except RelayError TxResult) :=
  match judgeLookup found with
  | some result => done result
  | none => (q.countLookup found).bind fun _ => q.lookupUntil hash timeout deadline s rounds

/-- A look-up that its signal can stop. -/
def lookup (q : Provider) (hash : String) (s : Signal) : Attempt (Option TxResult) :=
  Attempt.guard s (Attempt.request (.call q (.tx hash)) >>= Attempt.ofExcept)

theorem lookupUntil_succ (rounds : Nat) : q.lookupUntil hash timeout deadline s (rounds + 1) =
    (request .now).bind fun now =>
      (Attempt.guard s (Attempt.request (.pause
        (min q.config.pollInterval.millis (deadline - now))))).run.bind fun
      | .error stopped => done (.error stopped)
      | .ok _ =>
        if deadline ≤ now + q.config.pollInterval.millis then
          done (.error (.confirmationTimeout hash timeout))
        else
          (q.lookup hash s).run.bind (q.heedLookup hash timeout deadline s rounds) := by
  rw [lookupUntil]
  refine congrArg (Program.bind · _) (funext fun now => congrArg (Program.bind · _) ?_)
  funext paused
  cases paused with
  | error stopped => rfl
  | ok _ =>
      dsimp only
      split
      · rfl
      · refine congrArg (Program.bind · _) (funext fun found => ?_)
        cases found <;> rfl

theorem elapsed_pausing (now length : Nat) : elapsed (pausing now length) = length := by
  simp [pausing, instant]

theorem elapsed_lookingUp (found : Except RelayError (Option TxResult)) (millis : Nat) :
    elapsed (lookingUp q hash found millis) = millis := by
  simp [lookingUp, instant]

theorem elapsed_counting (found : Except RelayError (Option TxResult)) :
    elapsed (counting q found) = 0 := by
  cases found <;> rfl

theorem yieldsSpared_pause_iff {now length : Nat} {h : List Timed} {r : Except RelayError Unit} :
    (Attempt.guard s (Attempt.request (.pause length))).run.YieldsSpared s now h r ↔
      h = [instant (.answered .rest ()), ⟨.answered (.pause length) (), length⟩] ∧ r = .ok () := by
  rw [Attempt.yieldsSpared_guard_iff]
  constructor
  · rintro ⟨h', rfl, hy⟩
    obtain ⟨_, millis, rfl, ⟨_, hmillis⟩, rfl⟩ := Attempt.yieldsSpared_request_iff.mp hy
    obtain rfl : millis = length := hmillis
    exact ⟨rfl, rfl⟩
  · rintro ⟨rfl, rfl⟩
    exact ⟨_, rfl, Attempt.yieldsSpared_request_iff.mpr ⟨(), length, rfl, ⟨.inl trivial, rfl⟩, rfl⟩⟩

theorem yieldsSpared_lookup_iff {now : Nat} {h : List Timed}
    {found : Except RelayError (Option TxResult)} :
    (q.lookup hash s).run.YieldsSpared s now h found ↔
      ∃ millis, h = lookingUp q hash found millis := by
  have hcall : (Attempt.request (.call q (.tx hash)) >>= Attempt.ofExcept).run =
      request (.call q (.tx hash)) := rfl
  rw [lookup, Attempt.yieldsSpared_guard_iff, hcall]
  constructor
  · rintro ⟨h', rfl, hy⟩
    obtain ⟨millis, rfl, _⟩ := yieldsSpared_request_iff.mp hy
    exact ⟨millis, rfl⟩
  · rintro ⟨millis, rfl⟩
    exact ⟨_, rfl, yieldsSpared_request_iff.mpr ⟨millis, rfl, .inl trivial, trivial⟩⟩

theorem yieldsSpared_countLookup_iff {now : Nat} {found : Except RelayError (Option TxResult)}
    {h : List Timed} : (q.countLookup found).YieldsSpared s now h () ↔ h = counting q found := by
  cases found with
  | error e =>
      have hinstant : ¬ Request.Lasts (.record q .rpcError) := not_false
      exact (yieldsSpared_instant_iff hinstant).trans (and_iff_left ⟨.inr rfl, trivial⟩)
  | ok found => exact yieldsSpared_done_iff.trans (and_iff_left rfl)

theorem yieldsSpared_pausing_iff {α : Type} {length : Nat → Nat}
    {next : Nat → Except RelayError Unit → Program α} {now : Nat} {h : List Timed} {r : α} :
    ((request .now).bind fun now =>
        (Attempt.guard s (Attempt.request (.pause (length now)))).run.bind (next now)).YieldsSpared
      s now h r ↔
      ∃ h', h = pausing now (length now) ++ h' ∧
        (next now (.ok ())).YieldsSpared s (now + length now) h' r := by
  have hnow : ¬ Request.Lasts .now := not_false
  have hlength (clock length : Nat) : clock + 0 + (0 + (length + 0)) = clock + length := by omega
  rw [yieldsSpared_bind_iff]
  constructor
  · rintro ⟨_, _, _, rfl, hread, hy⟩
    obtain ⟨rfl, _, rfl⟩ := (yieldsSpared_instant_iff hnow).mp hread
    obtain ⟨_, _, h', rfl, hpause, hy⟩ := yieldsSpared_bind_iff.mp hy
    obtain ⟨rfl, rfl⟩ := yieldsSpared_pause_iff.mp hpause
    simp only [elapsed_cons, elapsed_nil, instant, hlength] at hy
    exact ⟨h', rfl, hy⟩
  · rintro ⟨h', rfl, hy⟩
    refine ⟨[instant (.answered .now now)], now, _, rfl,
      (yieldsSpared_instant_iff hnow).mpr ⟨rfl, .inr rfl, rfl⟩, yieldsSpared_bind_iff.mpr
        ⟨_, _, h', rfl, yieldsSpared_pause_iff.mpr ⟨rfl, rfl⟩, ?_⟩⟩
    simpa only [elapsed_cons, elapsed_nil, instant, hlength] using hy

/-- A round is a pause, at whose end the wait is over or a look-up is made. -/
theorem yieldsSpared_lookupUntil_succ_iff {rounds now : Nat} {h : List Timed}
    {r : Except RelayError TxResult} :
    (q.lookupUntil hash timeout deadline s (rounds + 1)).YieldsSpared s now h r ↔
      (deadline ≤ now + q.config.pollInterval.millis ∧
        h = pausing now (min q.config.pollInterval.millis (deadline - now)) ∧
        r = .error (.confirmationTimeout hash timeout)) ∨
      now + q.config.pollInterval.millis < deadline ∧ ∃ found millis h',
        h = pausing now q.config.pollInterval.millis ++ (lookingUp q hash found millis ++ h') ∧
        (q.heedLookup hash timeout deadline s rounds found).YieldsSpared s
          (now + q.config.pollInterval.millis + millis) h' r := by
  rw [lookupUntil_succ, yieldsSpared_pausing_iff]
  by_cases hlast : deadline ≤ now + q.config.pollInterval.millis
  · simp only [hlast, if_true, true_and, Nat.not_lt.mpr hlast, false_and, or_false]
    constructor
    · rintro ⟨_, rfl, hy⟩
      obtain ⟨rfl, rfl⟩ := yieldsSpared_done_iff.mp hy
      exact ⟨List.append_nil _, rfl⟩
    · rintro ⟨rfl, rfl⟩
      exact ⟨[], (List.append_nil _).symm, yieldsSpared_done_iff.mpr ⟨rfl, rfl⟩⟩
  · have hfull : min q.config.pollInterval.millis (deadline - now) =
        q.config.pollInterval.millis := by omega
    simp only [hlast, if_false, false_and, false_or, Nat.not_le.mp hlast, true_and, hfull]
    constructor
    · rintro ⟨_, rfl, hy⟩
      obtain ⟨_, found, h', rfl, hlookup, hy⟩ := yieldsSpared_bind_iff.mp hy
      obtain ⟨millis, rfl⟩ := yieldsSpared_lookup_iff.mp hlookup
      rw [elapsed_lookingUp] at hy
      exact ⟨found, millis, h', rfl, hy⟩
    · rintro ⟨found, millis, h', rfl, hy⟩
      refine ⟨_, rfl, yieldsSpared_bind_iff.mpr
        ⟨_, found, h', rfl, yieldsSpared_lookup_iff.mpr ⟨millis, rfl⟩, ?_⟩⟩
      rwa [elapsed_lookingUp]

theorem yieldsSpared_heedLookup_of_some {rounds now : Nat} {h : List Timed}
    {found : Except RelayError (Option TxResult)} {r r' : Except RelayError TxResult}
    (hjudge : judgeLookup found = some r') :
    (q.heedLookup hash timeout deadline s rounds found).YieldsSpared s now h r ↔
      h = [] ∧ r = r' := by
  rw [heedLookup, hjudge]
  exact yieldsSpared_done_iff

theorem yieldsSpared_heedLookup_of_none {rounds now : Nat} {h : List Timed}
    {found : Except RelayError (Option TxResult)} {r : Except RelayError TxResult}
    (hjudge : judgeLookup found = none) :
    (q.heedLookup hash timeout deadline s rounds found).YieldsSpared s now h r ↔
      ∃ h', h = counting q found ++ h' ∧
        (q.lookupUntil hash timeout deadline s rounds).YieldsSpared s now h' r := by
  rw [heedLookup, hjudge]
  refine yieldsSpared_bind_iff.trans ⟨?_, ?_⟩
  · rintro ⟨_, ⟨⟩, h', rfl, hcount, hy⟩
    obtain rfl := yieldsSpared_countLookup_iff.mp hcount
    rw [elapsed_counting, Nat.add_zero] at hy
    exact ⟨h', rfl, hy⟩
  · rintro ⟨h', rfl, hy⟩
    refine ⟨_, (), h', rfl, yieldsSpared_countLookup_iff.mpr rfl, ?_⟩
    rwa [elapsed_counting, Nat.add_zero]

/-- A wait that its signal does not stop goes in rounds.  There are more of them allowed than
milliseconds are left, and each takes at least one. -/
theorem yieldsSpared_lookupUntil_iff {rounds now : Nat} {h : List Timed}
    {r : Except RelayError TxResult} (hpoll : 0 < q.config.pollInterval.millis)
    (hrounds : deadline - now < rounds) :
    (q.lookupUntil hash timeout deadline s rounds).YieldsSpared s now h r ↔
      ∃ ls, Rounds q hash timeout q.config.pollInterval.millis deadline now ls h r := by
  induction rounds generalizing now h with
  | zero => omega
  | succ rounds ih =>
      rw [yieldsSpared_lookupUntil_succ_iff]
      constructor
      · rintro (⟨hlast, rfl, rfl⟩ | ⟨hbefore, found, millis, h', rfl, hy⟩)
        · exact ⟨[], .timedOut hlast⟩
        -- the pause took a millisecond at least, so the rounds that are left are enough
        · have hleft : deadline - (now + q.config.pollInterval.millis + millis) < rounds := by omega
          cases hjudge : judgeLookup found with
          | some result =>
              obtain ⟨rfl, rfl⟩ := (yieldsSpared_heedLookup_of_some hjudge).mp hy
              rw [List.append_nil]
              exact ⟨_, .decided hbefore hjudge⟩
          | none =>
              obtain ⟨h', rfl, hrest⟩ := (yieldsSpared_heedLookup_of_none hjudge).mp hy
              obtain ⟨ls, hls⟩ := (ih hleft).mp hrest
              exact ⟨_, .again hbefore hjudge hls⟩
      · rintro ⟨ls, hlast | @⟨_, millis, found, _, hbefore, hjudge⟩ |
          @⟨_, millis, found, ls, h', _, hbefore, hjudge, hls⟩⟩
        · exact .inl ⟨hlast, rfl, rfl⟩
        · exact .inr ⟨hbefore, found, millis, [], by rw [List.append_nil],
            (yieldsSpared_heedLookup_of_some hjudge).mpr ⟨rfl, rfl⟩⟩
        · have hleft : deadline - (now + q.config.pollInterval.millis + millis) < rounds := by omega
          exact .inr ⟨hbefore, found, millis, _, rfl, (yieldsSpared_heedLookup_of_none hjudge).mpr
            ⟨h', rfl, (ih hleft).mpr ⟨ls, hls⟩⟩⟩

theorem yieldsSpared_awaitInclusion_iff {start : Nat} {h : List Timed}
    {r : Except RelayError TxResult} (hpoll : 0 < q.config.pollInterval.millis) :
    (q.awaitInclusion hash timeout s).run.YieldsSpared s start h r ↔
      ∃ ls h', h = instant (.answered .now start) :: h' ∧
        Rounds q hash timeout q.config.pollInterval.millis (start + timeout.millis) start ls h' r := by
  have hnow : ¬ Request.Lasts .now := not_false
  have hrounds : q.lookupRounds timeout = timeout.millis + 1 := by
    rw [lookupRounds, if_neg (by omega)]
  have hrun : (q.awaitInclusion hash timeout s).run = (request .now).bind fun start =>
      q.lookupUntil hash timeout (start + timeout.millis) s (timeout.millis + 1) := by
    rw [← hrounds]
    rfl
  rw [hrun, yieldsSpared_bind_iff]
  constructor
  · rintro ⟨_, _, h', rfl, hread, hy⟩
    obtain ⟨rfl, _, rfl⟩ := (yieldsSpared_instant_iff hnow).mp hread
    obtain ⟨ls, hls⟩ := (yieldsSpared_lookupUntil_iff hpoll (by omega)).mp hy
    exact ⟨ls, h', rfl, hls⟩
  · rintro ⟨ls, h', rfl, hls⟩
    exact ⟨_, start, h', rfl, (yieldsSpared_instant_iff hnow).mpr ⟨rfl, .inr rfl, rfl⟩,
      (yieldsSpared_lookupUntil_iff hpoll (by omega)).mpr ⟨ls, hls⟩⟩

namespace Rounds

variable {now : Nat} {ls : List Lookup} {h : List Timed} {r : Except RelayError TxResult}

theorem lookups_eq (hr : Rounds q hash timeout interval deadline now ls h r) :
    lookups now h = ls := by
  have hround (now millis : Nat) (found : Except RelayError (Option TxResult)) (h : List Timed) :
      lookups now (pausing now interval ++ (lookingUp q hash found millis ++ h)) =
        ⟨now + interval, millis, found⟩ :: lookups (now + interval + millis) h := by
    rw [lookups_append, lookups_append, elapsed_pausing, elapsed_lookingUp]
    rfl
  -- what a failed look-up counts is no look-up, so `counting` adds none
  induction hr with
  | timedOut _ => rfl
  | @decided now millis found r _ _ =>
      simpa only [List.append_nil, lookups] using hround now millis found []
  | @again now millis found ls h r _ _ _ ih =>
      rw [hround, lookups_append, elapsed_counting, Nat.add_zero, ih]
      cases found <;> rfl

/-- Every look-up is made before the deadline, and only the last one can decide. -/
theorem lookups_before (hr : Rounds q hash timeout interval deadline now ls h r) :
    (∀ l ∈ ls, l.made < deadline) ∧ ∀ l ∈ ls.dropLast, judgeLookup l.found = none := by
  induction hr with
  | timedOut _ => simp
  | decided hbefore _ => simpa using hbefore
  | @again now millis found ls h r hbefore hjudge _ ih =>
      refine ⟨List.forall_mem_cons.mpr ⟨hbefore, ih.1⟩, ?_⟩
      cases ls with
      | nil => simp
      | cons l ls =>
          rw [List.dropLast_cons_cons, List.forall_mem_cons]
          exact ⟨hjudge, ih.2⟩

/-- A wait ends with what its last look-up decides, when that is answered; or else it times out,
at the deadline or when the last look-up is answered after it. -/
theorem ends (hr : Rounds q hash timeout interval deadline now ls h r) :
    (∃ l, ls.getLast? = some l ∧ judgeLookup l.found = some r ∧
      now + elapsed h = Lookup.heard now ls) ∨
    (∀ l ∈ ls, judgeLookup l.found = none) ∧ r = .error (.confirmationTimeout hash timeout) ∧
      now + elapsed h = max deadline (Lookup.heard now ls) := by
  induction hr with
  | @timedOut now hlast =>
      refine .inr ⟨by simp, rfl, ?_⟩
      rw [elapsed_pausing, Lookup.heard]
      omega
  | @decided now millis found r _ hjudge =>
      refine .inl ⟨_, rfl, hjudge, ?_⟩
      rw [elapsed_append, elapsed_pausing, elapsed_lookingUp, ← Nat.add_assoc]
      rfl
  | @again now millis found ls h r _ hjudge hrest ih =>
      have helapsed : now + elapsed (pausing now interval ++
          (lookingUp q hash found millis ++ (counting q found ++ h))) =
          now + interval + millis + elapsed h := by
        simp only [elapsed_append, elapsed_pausing, elapsed_lookingUp, elapsed_counting]
        omega
      rw [helapsed]
      obtain ⟨l, hl, hdecides, hend⟩ | ⟨hnone, rfl, hend⟩ := ih
      · exact .inl ⟨l, by rw [List.getLast?_cons, hl]; rfl, hdecides, hend⟩
      · exact .inr ⟨List.forall_mem_cons.mpr ⟨hjudge, hnone⟩, rfl, hend⟩

end Rounds

end Provider

end PacketRelay
