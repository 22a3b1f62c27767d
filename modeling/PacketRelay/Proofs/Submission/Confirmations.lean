import PacketRelay.Proofs.Metrics.Books
import PacketRelay.Proofs.Submission.MempoolCalls
import PacketRelay.Proofs.System.Spawns

/-!
# Every outcome is counted once

A job that waits for a transaction counts the outcome that it found, as the last thing that it does,
and nothing else counts outcomes.  So the counters tell apart the finished jobs that found their
transaction confirmed, that found it failed and that timed out.
-/

namespace PacketRelay

open Program

namespace Confirmation

def isConfirmed : Confirmation → Bool
  | .confirmed _ => true
  | _ => false

def isFailed : Confirmation → Bool
  | .failed .. => true
  | _ => false

def isTimedOut : Confirmation → Bool
  | .timedOut .. => true
  | _ => false

/-- A confirmation is of one of three kinds. -/
theorem count_kind (c : Confirmation) (b : Bool) : (if b then 1 else 0) =
    (if b && c.isConfirmed then 1 else 0) + (if b && c.isFailed then 1 else 0) +
      if b && c.isTimedOut then 1 else 0 := by
  cases c <;> simp [isConfirmed, isFailed, isTimedOut]

/-- The confirmations of a kind are those that go by a label. -/
def Labelled (kind : Confirmation → Bool) (outcome : String) : Prop :=
  ∀ c : Confirmation, c.outcome = outcome ↔ kind c = true

theorem labelled_confirmed : Labelled isConfirmed "confirmed" := fun c => by
  cases c <;> simp [outcome, isConfirmed]

theorem labelled_failed : Labelled isFailed "failed" := fun c => by
  cases c <;> simp [outcome, isFailed]

theorem labelled_timedOut : Labelled isTimedOut "timed_out" := fun c => by
  cases c <;> simp [outcome, isTimedOut]

/-- No confirmation goes by a fourth label. -/
theorem labelled_of_ne {outcome : String} (hconfirmed : outcome ≠ "confirmed")
    (hfailed : outcome ≠ "failed") (htimedOut : outcome ≠ "timed_out") :
    Labelled (fun _ => false) outcome := fun c => by
  cases c with
  | confirmed response => simpa [Confirmation.outcome] using hconfirmed.symm
  | failed response error => simpa [Confirmation.outcome] using hfailed.symm
  | timedOut txHash timeout => simpa [Confirmation.outcome] using htimedOut.symm

end Confirmation

/-- A job that waits looks for its transaction until it counts an outcome. -/
inductive Counting (p : Provider) : Option String → Exchange → Option String → Prop where
  | looked {x : Exchange} : x.request.OfLookup → Counting p none x none
  | counted {outcome : String} :
    Counting p none (.answered (.record p (.confirmation outcome)) ()) (some outcome)

/-- The requests of a job that reports to a caller. -/
def Request.Tells (caller : Nat) : Request → Prop
  | .join _ => True
  | .notify i _ => i = caller
  | _ => False

theorem Counting.countP_path {p : Provider} {h : List Exchange} {st : Option String}
    (hpath : Path (Counting p) none h st) (among : Provider → Bool) (outcome : String) :
    h.countP (Exchange.answers (Request.records among (.confirmation outcome))) =
      if among p ∧ st = some outcome then 1 else 0 := by
  induction h with
  | nil =>
      cases hpath
      simp
  | cons x h ih =>
      obtain _ | ⟨hmove, hrest⟩ := hpath
      cases hmove with
      | looked hx =>
          have hnone : ¬ x.answers (Request.records among (.confirmation outcome)) := by
            cases x with
            | stopped n r => exact Bool.false_ne_true
            | answered r a =>
                cases r with
                | record q m =>
                    cases m with
                    | rpcError => simp [Exchange.answers, Request.records]
                    | _ => exact hx.elim
                | _ => exact Bool.false_ne_true
          rw [List.countP_cons_of_neg hnone, ih hrest]
      | counted =>
          cases hrest with
          | nil => simp [Exchange.answers, Request.records]
          | cons hmove _ => cases hmove

namespace Provider

variable {p : Provider} {hash : String} {s : Signal} {T : Exchange → Prop}

theorem follows_confirmJob : Follows (Counting p) T
    (fun st r => ∃ c : Confirmation, r = some c ∧ st = some c.outcome) none
    (p.runJob (.confirm hash s)) := by
  have hconfirm : Follows (Counting p) T (fun st c => st = some c.outcome) none
      (p.confirm hash s) := by
    refine (follows_of_asks (fun x hx => .looked hx) asks_awaitInclusion).bind ?_
    rintro st r ⟨rfl, _⟩
    exact fun _ => ⟨_, .counted, rfl⟩
  exact hconfirm.bind fun st c hst => ⟨c, rfl, hst⟩

/-- A job that waits has counted nothing before it is finished, and then its own outcome. -/
theorem reaches_confirmJob {h : List Exchange} {q : Program (Option Confirmation)}
    (hreach : (p.runJob (.confirm hash s)).Reaches h q) (among : Provider → Bool)
    (outcome : String) :
    (∃ c, q = .done (some c) ∧
      h.countP (Exchange.answers (Request.records among (.confirmation outcome))) =
        if among p ∧ c.outcome = outcome then 1 else 0) ∨
      (∀ r, q ≠ .done r) ∧
        h.countP (Exchange.answers (Request.records among (.confirmation outcome))) = 0 := by
  obtain ⟨st, hpath, hq⟩ := hreach.follows (T := fun _ => True) (fun _ _ => trivial)
    follows_confirmJob
  rw [Counting.countP_path hpath]
  cases st with
  | none =>
      refine .inr ⟨?_, by simp⟩
      rintro r rfl
      obtain ⟨c, _, hc⟩ := hq
      cases hc
  | some found =>
      obtain ⟨r, rfl, c, rfl, hc⟩ := hq.exists_done fun x st' hmove => by cases hmove
      obtain rfl := Option.some.inj hc
      exact .inl ⟨c, rfl, by simp⟩

theorem asks_report {caller : Nat} {outcome : Except RelayError Nat} :
    Asks (Request.Tells caller) (p.runJob (.report caller outcome)) := by
  cases outcome with
  | error e => exact ⟨rfl, fun _ => trivial⟩
  | ok job => exact ⟨trivial, fun _ => ⟨rfl, fun _ => trivial⟩⟩

end Provider

namespace System

variable {ρ : Type} {τ : System ρ} {caches : KeyId → SequenceState} {h : List (Agent × Exchange)}

/-- The provider of a job that waited for a transaction, and what the job found. -/
def confirmation? (h : List (Agent × Exchange)) (τ : System ρ) (n : Nat) :
    Option (Provider × Confirmation) :=
  match (spawns h)[n]?, τ.jobs[n]? with
  | some (p, .confirm ..), some (.done (some c)) => some (p, c)
  | _, _ => none

/-- The job waited for a transaction of one of the providers and is finished. -/
def waited (among : Provider → Bool) (h : List (Agent × Exchange)) (τ : System ρ) (n : Nat) : Bool :=
  match (spawns h)[n]?, τ.jobs[n]? with
  | some (p, .confirm ..), some (.done _) => among p
  | _, _ => false

/-- The job found an outcome of a kind, of a transaction of one of the providers. -/
def found (among : Provider → Bool) (kind : Confirmation → Bool) (h : List (Agent × Exchange))
    (τ : System ρ) (n : Nat) : Bool :=
  (confirmation? h τ n).any fun found => among found.1 && kind found.2

theorem Run.countP_own_job {calls : Nat → Program ρ} (hr : Run (start caches calls) h τ)
    (among : Provider → Bool) {kind : Confirmation → Bool} {outcome : String}
    (hkind : Confirmation.Labelled kind outcome) (n : Nat) :
    (own (.job n) h).countP (Exchange.answers (Request.records among (.confirmation outcome))) =
      if found among kind h τ n then 1 else 0 := by
  unfold found confirmation?
  cases hn : (spawns h)[n]? with
  | none =>
      rw [List.getElem?_eq_none_iff, ← hr.length_jobs] at hn
      rw [hr.own_job_eq_nil hn]
      rfl
  | some started =>
      obtain ⟨p, j⟩ := started
      obtain ⟨q, hq, hreach⟩ := hr.reaches_spawned hn
      rw [hq]
      cases j with
      | confirm hash s =>
          obtain ⟨c, rfl, hcount⟩ | ⟨hq, hcount⟩ := Provider.reaches_confirmJob hreach among outcome
          · rw [hcount]
            simp [hkind c]
          · rw [hcount]
            cases q with
            | done r => exact absurd rfl (hq r)
            | _ => rfl
      | report caller result =>
          have hnone : (own (.job n) h).countP
              (Exchange.answers (Request.records among (.confirmation outcome))) = 0 := by
            refine List.countP_eq_zero.mpr fun x hx => ?_
            have htells := (hreach.asks Provider.asks_report).1 x hx
            cases x with
            | stopped m r => exact Bool.false_ne_true
            | answered r a => cases r <;> first | exact htells.elim | exact Bool.false_ne_true
          simpa using hnone

/-- A finished job that waited has found one of the three outcomes. -/
theorem Run.waited_eq {calls : Nat → Program ρ} (hr : Run (start caches calls) h τ)
    (among : Provider → Bool) (n : Nat) : (if waited among h τ n then 1 else 0) =
      (if found among Confirmation.isConfirmed h τ n then 1 else 0) +
        (if found among Confirmation.isFailed h τ n then 1 else 0) +
          if found among Confirmation.isTimedOut h τ n then 1 else 0 := by
  unfold waited found confirmation?
  cases hn : (spawns h)[n]? with
  | none => rfl
  | some started =>
      obtain ⟨p, j⟩ := started
      obtain ⟨q, hq, hreach⟩ := hr.reaches_spawned hn
      rw [hq]
      cases j with
      | report caller result => rfl
      | confirm hash s =>
          obtain ⟨c, rfl, -⟩ | ⟨hq, -⟩ := Provider.reaches_confirmJob hreach among ""
          · exact c.count_kind (among p)
          · cases q with
            | done r => exact absurd rfl (hq r)
            | _ => rfl

variable {calls : Nat → MempoolCall} {τ : System (Except RelayError Unit)}

/-- The counter of a label shows how many jobs that waited have found the outcome that goes by it. -/
theorem Run.countP_confirmation
    (hr : Run (start caches fun i => (calls i).program i) h τ) (among : Provider → Bool)
    {kind : Confirmation → Bool} {outcome : String}
    (hkind : Confirmation.Labelled kind outcome) :
    h.countP (fun e => e.2.answers (Request.records among (.confirmation outcome))) =
      (List.range τ.jobs.length).countP (found among kind h τ) := by
  rw [countP_eq_tally, hr.tally_eq_sum_jobs, countP_range]
  · exact Finset.sum_congr rfl fun n _ => (sum_map_ite _ _).trans (hr.countP_own_job among hkind n)
  · intro i
    rw [sum_map_ite, List.countP_eq_zero]
    intro x hx
    cases x with
    | stopped m r => exact Bool.false_ne_true
    | answered r a =>
        obtain hsubmits | ⟨d, result, _, hspawn⟩ := MempoolCall.mem_of_reaches (hr.reaches i) hx
        · cases r with
          | record p m =>
              cases m with
              | confirmation o => exact hsubmits.elim
              | _ => simp [Exchange.answers, Request.records]
          | _ => exact Bool.false_ne_true
        · obtain rfl : r = _ := hspawn
          exact Bool.false_ne_true

end System

end PacketRelay
