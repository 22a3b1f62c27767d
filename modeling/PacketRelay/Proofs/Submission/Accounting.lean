import PacketRelay.Proofs.Submission.Balance
import PacketRelay.Proofs.Submission.Callbacks
import PacketRelay.Proofs.Submission.Progress

/-!
# Every accepted transaction has one outcome

The counters that a registry exports agree with what happened: a broadcast was accepted as often as
a job was left for it, every other answer is a rejection, and each job that waited counted the
outcome that it found.
-/

namespace PacketRelay

open Program

/-- The mempool accepted a broadcast of one of the providers. -/
def Exchange.acceptedBy (among : Provider → Bool) : Exchange → Bool
  | .answered (.call p (.broadcast _)) (.ok a) => among p && a.code = 0
  | _ => false

/-- A broadcast of one of the providers was answered with a failure or with another code. -/
def Exchange.refusedBy (among : Provider → Bool) : Exchange → Bool
  | .answered (.call p (.broadcast _)) (.ok a) => among p && a.code ≠ 0
  | .answered (.call p (.broadcast _)) (.error _) => among p
  | _ => false

def Job.waitsFor (among : Provider → Bool) (p : Provider) : Job → Bool
  | .confirm .. => among p
  | .report .. => false

def Request.startsWait (among : Provider → Bool) : Request → Bool
  | .spawn p j => j.waitsFor among p
  | _ => false

section Worth

variable {Fees : List Coin → Bytes → Prop} (among : Provider → Bool)

theorem worth_of_answers {happened : Exchange → Bool} {entered : Request → Bool}
    (hdues : ∀ p tx fees waitSignal answer,
      (if happened (.answered (.call p (.broadcast tx)) answer) then 1 else 0) =
        ((p.dues tx fees waitSignal answer).map fun r => if entered r then 1 else 0).sum)
    (hhappened : ∀ x : Exchange, happened x = true →
      ∃ p tx answer, x = .answered (.call p (.broadcast tx)) answer)
    (hentered : ∀ r : Request, entered r = true → r.Enters) :
    Worth Fees (fun x => if happened x then 1 else 0) fun r => if entered r then 1 else 0 where
  answered _ := hdues _ _ _ _ _
  stopped n r := if_neg fun hx => by
    obtain ⟨_, _, _, heq⟩ := hhappened _ hx
    cases heq
  other hr := if_neg fun hx => by
    obtain ⟨p, tx, _, heq⟩ := hhappened _ hx
    cases heq
    exact hr p tx rfl
  weight hr := if_neg fun hx => hr (hentered _ hx)

theorem Exchange.eq_broadcast_of_accepted {x : Exchange} (hx : x.acceptedBy among = true) :
    ∃ p tx answer, x = .answered (.call p (.broadcast tx)) answer := by
  unfold acceptedBy at hx
  split at hx
  · exact ⟨_, _, _, rfl⟩
  · cases hx

theorem Exchange.eq_broadcast_of_refused {x : Exchange} (hx : x.refusedBy among = true) :
    ∃ p tx answer, x = .answered (.call p (.broadcast tx)) answer := by
  unfold refusedBy at hx
  split at hx
  · exact ⟨_, _, _, rfl⟩
  · exact ⟨_, _, _, rfl⟩
  · cases hx

theorem Request.enters_of_records {accepted : Bool} (r : Request)
    (hr : r.records among (.broadcast accepted) = true) : r.Enters := by
  unfold records at hr
  split at hr
  · obtain ⟨_, rfl⟩ : _ ∧ _ = Metric.broadcast accepted := by simpa using hr
    trivial
  · cases hr

/-- An accepted broadcast is worth one record of it. -/
theorem worth_accepted : Worth Fees (fun x => if x.acceptedBy among then 1 else 0)
    fun r => if r.records among (.broadcast true) then 1 else 0 := by
  refine worth_of_answers (fun p tx fees waitSignal answer => ?_)
    (fun x => Exchange.eq_broadcast_of_accepted among) (Request.enters_of_records among)
  cases answer with
  | error failure => simp [Exchange.acceptedBy, Provider.dues, Request.records]
  | ok a =>
      by_cases hcode : a.code = 0 <;>
        simp [Exchange.acceptedBy, Provider.dues, Request.records, hcode]

/-- An accepted broadcast is worth one job that waits for the transaction. -/
theorem worth_waiting : Worth Fees (fun x => if x.acceptedBy among then 1 else 0)
    fun r => if r.startsWait among then 1 else 0 := by
  refine worth_of_answers (fun p tx fees waitSignal answer => ?_)
    (fun x => Exchange.eq_broadcast_of_accepted among) fun r hr => ?_
  · cases answer with
    | error failure => simp [Exchange.acceptedBy, Provider.dues, Request.startsWait]
    | ok a =>
        by_cases hcode : a.code = 0 <;> cases hp : among p <;>
          simp [Exchange.acceptedBy, Provider.dues, Request.startsWait, Job.waitsFor, hcode, hp]
  · unfold Request.startsWait at hr
    split at hr
    · next p j =>
      cases j with
      | confirm hash s => trivial
      | report caller outcome => cases hr
    · cases hr

/-- Any other answer to a broadcast is worth one record of a rejection. -/
theorem worth_refused : Worth Fees (fun x => if x.refusedBy among then 1 else 0)
    fun r => if r.records among (.broadcast false) then 1 else 0 := by
  refine worth_of_answers (fun p tx fees waitSignal answer => ?_)
    (fun x => Exchange.eq_broadcast_of_refused among) (Request.enters_of_records among)
  cases answer with
  | error failure =>
      cases hp : among p <;> simp [Exchange.refusedBy, Provider.dues, Request.records, hp]
  | ok a =>
      by_cases hcode : a.code = 0 <;>
        simp [Exchange.refusedBy, Provider.dues, Request.records, hcode]

end Worth

namespace System

variable {caches : KeyId → SequenceState} {calls : Nat → MempoolCall}
  {τ : System (Except RelayError Unit)} {h : List (Agent × Exchange)}

/-- Between the steps of its calls a run has entered what happened. -/
theorem Run.countP_entered (hr : Run (start caches fun i => (calls i).program i) h τ)
    (hsettled : ∀ i, (τ.calls i).Settled) {happened : Exchange → Bool} {entered : Request → Bool}
    (hworth : Worth (fun _ _ => True) (fun x => if happened x then 1 else 0)
      fun r => if entered r then 1 else 0) :
    h.countP (fun e => happened e.2) = h.countP fun e => e.2.answers entered := by
  rw [countP_eq_tally, countP_eq_tally]
  refine (hr.balance (fun i => ?_) fun _ => hworth.aside).trans (tally_congr fun a => ?_)
  · exact (hr.reaches i).balance (T := fun _ => True) (fun _ _ => trivial)
      ((calls i).follows_program fun _ _ _ => trivial) (hsettled i) hworth
  · exact congrArg List.sum (List.map_congr_left fun x _ => (x.ite_answers entered).symm)

theorem countP_spawns (among : Provider → Bool) (h : List (Agent × Exchange)) :
    (spawns h).countP (fun s => s.2.waitsFor among s.1) =
      h.countP fun e => e.2.answers (Request.startsWait among) := by
  rw [spawns, List.countP_filterMap]
  refine List.countP_congr fun e _ => ?_
  cases e.2 with
  | stopped n r => rfl
  | answered r a => cases r <;> rfl

/-- In every run of submissions, reporting or not: between the steps of the calls the counter of
accepted broadcasts shows how many were accepted, which is how many jobs were left waiting, and the
counter of rejections shows how many got another answer.  Of the finished ones of these jobs each is
counted once, under the label of the confirmation that it found, and no other label is counted.  A
caller is told at most one thing, after its call is done, which is the outcome of that call, and has
been told once all jobs are finished. -/
theorem every_acceptance_has_one_outcome
    (hr : Run (start caches fun i => (calls i).program i) h τ) (exports : Nat → Option String)
    (name chain : String) :
    ((∀ i, (τ.calls i).Settled) →
      ((Books.after exports h).registries name).value chain (.broadcast true) =
        h.countP (fun e => e.2.acceptedBy (Provider.exporting exports name chain)) ∧
      ((Books.after exports h).registries name).value chain (.broadcast true) =
        (spawns h).countP (fun s => s.2.waitsFor (Provider.exporting exports name chain) s.1) ∧
      ((Books.after exports h).registries name).value chain (.broadcast false) =
        h.countP (fun e => e.2.refusedBy (Provider.exporting exports name chain))) ∧
    ((Books.after exports h).registries name).value chain (.confirmation "confirmed") =
      (List.range τ.jobs.length).countP
        (found (Provider.exporting exports name chain) Confirmation.isConfirmed h τ) ∧
    ((Books.after exports h).registries name).value chain (.confirmation "failed") =
      (List.range τ.jobs.length).countP
        (found (Provider.exporting exports name chain) Confirmation.isFailed h τ) ∧
    ((Books.after exports h).registries name).value chain (.confirmation "timed_out") =
      (List.range τ.jobs.length).countP
        (found (Provider.exporting exports name chain) Confirmation.isTimedOut h τ) ∧
    (∀ outcome, outcome ≠ "confirmed" → outcome ≠ "failed" → outcome ≠ "timed_out" →
      ((Books.after exports h).registries name).value chain (.confirmation outcome) = 0) ∧
    ((Books.after exports h).registries name).value chain (.confirmation "confirmed") +
        ((Books.after exports h).registries name).value chain (.confirmation "failed") +
        ((Books.after exports h).registries name).value chain (.confirmation "timed_out") =
      (List.range τ.jobs.length).countP (waited (Provider.exporting exports name chain) h τ) ∧
    ∀ i c, calls i = .report c →
      (notices i h = [] ∨ ∃ result, notices i h = [result] ∧ Tells τ h i result) ∧
      ((∃ r, τ.calls i = .done r) → (∀ q ∈ τ.jobs, ∃ r, q = .done r) → notices i h ≠ []) := by
  generalize hamong : Provider.exporting exports name chain = among
  have hvalue (m : Metric) : ((Books.after exports h).registries name).value chain m =
      h.countP fun e => e.2.answers (Request.records among m) := by
    rw [Books.value_after, hamong]
  have houtcome {kind : Confirmation → Bool} {outcome : String}
      (hkind : Confirmation.Labelled kind outcome) :
      ((Books.after exports h).registries name).value chain (.confirmation outcome) =
        (List.range τ.jobs.length).countP (found among kind h τ) := by
    rw [hvalue, hr.countP_confirmation among hkind]
  have hconfirmed := houtcome Confirmation.labelled_confirmed
  have hfailed := houtcome Confirmation.labelled_failed
  have htimedOut := houtcome Confirmation.labelled_timedOut
  refine ⟨fun hsettled => ⟨?_, ?_, ?_⟩, hconfirmed, hfailed, htimedOut,
    fun outcome hc hf ht => ?_, ?_, fun i c hcall => ⟨hr.told hcall, ?_⟩⟩
  · rw [hvalue, hr.countP_entered hsettled (worth_accepted among)]
  · rw [hvalue, countP_spawns, ← hr.countP_entered hsettled (worth_accepted among),
      hr.countP_entered hsettled (worth_waiting among)]
  · rw [hvalue, hr.countP_entered hsettled (worth_refused among)]
  · rw [houtcome (Confirmation.labelled_of_ne hc hf ht), List.countP_eq_zero]
    intro n _
    simp [found]
  · rw [hconfirmed, hfailed, htimedOut, countP_range, countP_range, countP_range, countP_range,
      ← Finset.sum_add_distrib, ← Finset.sum_add_distrib]
    exact (Finset.sum_congr rfl fun n _ => hr.waited_eq among n).symm
  · rintro ⟨r, hdone⟩ hjobs
    exact hr.notices_ne_nil hcall hdone hjobs

theorem wait?_of_plain {x : Exchange} (hx : x.request.Plain) : x.wait? = none := by
  unfold Exchange.wait?
  split
  · exact hx.elim
  · rfl

theorem spawned?_of_plain {x : Exchange} (hx : x.request.Plain) : x.spawned? = none := by
  unfold Exchange.spawned?
  split
  · exact hx.elim
  · rfl

theorem spawns_of_plain {g : List Exchange} (hg : ∀ x ∈ g, x.request.Plain) (a : Agent) :
    spawns (g.map fun x => (a, x)) = [] := by
  rw [spawns, List.filterMap_map, List.filterMap_eq_nil_iff]
  exact fun x hx => spawned?_of_plain (hg x hx)

/-- A reporting submission that nothing hinders is accepted and leaves two jobs. -/
theorem exists_reported_history : ∃ (g : List Exchange) (hash : String) (s : Signal)
      (st : SequenceState), (∀ x ∈ g, x.request.Plain) ∧
    (Provider.twice.submitReporting [] "" none none 0).run.Yields
      (.answered .rest () :: .answered (.acquire .twice) ⟨3, 0⟩ ::
        (g ++ [.answered (.spawn .twice (.confirm hash s)) (0 : Nat),
          .answered (.release .twice st) (),
          .answered (.spawn .twice (.report 0 (.ok 0))) (1 : Nat)])) (.ok ()) := by
  have hexpected : (3 : UInt64).toNat + 1 < UInt64.size := by decide
  have hanys : ([] : List Outgoing).mapM Outgoing.toAny = .ok [] := rfl
  obtain ⟨h₁, x, h₂, j, st, pending, hy, _, _, hbody⟩ :=
    Provider.exists_accepted_history hexpected hanys (p := .twice) (c := ⟨3, 0⟩) rfl rfl "" none
      none 0
  have hplain : ∀ y ∈ h₁ ++ x :: h₂, y.request.Plain := fun y hy => (hbody y hy).1
  generalize h₁ ++ x :: h₂ = g at hy hplain
  have hnone : g.filterMap Exchange.wait? = [] :=
    List.filterMap_eq_nil_iff.mpr fun x hx => wait?_of_plain (hplain x hx)
  have hwaits := (Provider.yields_submit hy).waits
  rw [List.filterMap_cons_none rfl, List.filterMap_cons_none rfl, List.filterMap_append, hnone]
    at hwaits
  cases j with
  | report caller outcome => cases hwaits
  | confirm hash s =>
      obtain ⟨txHash, sequence, job⟩ := pending
      obtain rfl : 0 = job := (List.cons.inj hwaits).1
      have hreport := Provider.yields_submitReporting_of (i := 0) hy 1
      simp only [Except.map, List.cons_append, List.append_assoc, List.nil_append] at hreport
      exact ⟨g, hash, s, st, hplain, hreport⟩

/-- All callers submit nothing through one provider and want to be told. -/
def reporting : System (Except RelayError Unit) :=
  start (fun _ => ⟨3, 0⟩) fun i => (MempoolCall.report ⟨.twice, [], "", none, none⟩).program i

theorem exists_called_run : ∃ (h : List (Agent × Exchange)) (σ : System (Except RelayError Unit))
      (hash : String) (s : Signal), Run reporting h σ ∧ (∀ i, (σ.calls i).Settled) ∧
    σ.calls 0 = .done (.ok ()) ∧
    σ.jobs = [Provider.twice.runJob (.confirm hash s), Provider.twice.runJob (.report 0 (.ok 0))] ∧
    spawns h = [(.twice, .confirm hash s), (.twice, .report 0 (.ok 0))] := by
  obtain ⟨g, hash, s, st, hplain, hcall⟩ := exists_reported_history
  have hallow : reporting.AllowsAll (.call 0) (.answered .rest () ::
      .answered (.acquire .twice) ⟨3, 0⟩ :: (g ++ [
        .answered (.spawn .twice (.confirm hash s)) (0 : Nat), .answered (.release .twice st) (),
        .answered (.spawn .twice (.report 0 (.ok 0))) (1 : Nat)])) := by
    refine ⟨trivial, ⟨rfl, rfl⟩, ?_⟩
    rw [(allowsAll_plain_append_iff hplain).1]
    have hheld : (reporting.after (.call 0) (.answered (.acquire .twice) ⟨3, 0⟩)).holders
        Provider.twice.key = some (.call 0) := by simp [after]
    exact ⟨rfl, hheld, rfl, trivial⟩
  have hfirst : (reporting.calls 0).Reaches _ _ := hcall
  have hrun := Run.of_reaches hfirst hallow
  have hafter (x : Exchange) (g : List Exchange) (σ : System (Except RelayError Unit)) :
      σ.afterAll (.call 0) (x :: g) = (σ.after (.call 0) x).afterAll (.call 0) g := rfl
  rw [hafter, hafter, (allowsAll_plain_append_iff hplain).2] at hrun
  refine ⟨_, _, hash, s, hrun, fun i => ?_, by simp, rfl, ?_⟩
  · by_cases hi : i = 0
    · subst hi
      simp [Settled]
    · simp only [Function.update_of_ne hi]
      exact not_false
  · simp only [List.map_cons, List.map_append, spawns]
    have hnone := spawns_of_plain hplain (.call 0)
    rw [spawns] at hnone
    rw [List.filterMap_cons_none rfl, List.filterMap_cons_none rfl, List.filterMap_append, hnone]
    rfl

/-- The call is accepted, then the first job waits for the transaction, and then the second one
reports what the first one found. -/
theorem exists_reported_run : ∃ (h : List (Agent × Exchange)) (τ : System (Except RelayError Unit))
      (hash : String) (s : Signal) (c : Confirmation), Run reporting h τ ∧
    (∀ i, (τ.calls i).Settled) ∧ τ.calls 0 = .done (.ok ()) ∧
    τ.jobs = [.done (some c), .done none] ∧
    spawns h = [(.twice, .confirm hash s), (.twice, .report 0 (.ok 0))] := by
  obtain ⟨h, σ, hash, s, hcalled, hsettled, hdone, hjobs, hspawns⟩ := exists_called_run
  obtain ⟨g, r, hjob⟩ := (Provider.twice.runJob (.confirm hash s)).exists_yields
  obtain ⟨st, hpath, c, rfl, _⟩ := Reaches.follows (T := fun _ => True) hjob (fun _ _ => trivial)
    Provider.follows_confirmJob
  have hplain : ∀ x ∈ g, x.request.Plain := by
    intro x hx
    obtain ⟨_, _, hmove⟩ := hpath.exists_move hx
    cases hmove with
    | looked hlook =>
        generalize x.request = r at hlook
        cases r <;> first | exact hlook.elim | trivial
    | counted => trivial
  have hwaited := Run.of_job (n := 0) hjob (by rw [hjobs]; rfl) hplain
  rw [hjobs] at hwaited
  let tell : Program (Option Confirmation) := .ask (.notify 0 c.toResult) fun _ => .done none
  have hjoined : Step { σ with jobs := [.done (some c), Provider.twice.runJob (.report 0 (.ok 0))] }
      (.job 1) (.answered (.join 0) c) { σ with jobs := [.done (some c), tell] } :=
    .job rfl (.ask (r := .join 0) c) rfl
  have htold : Step { σ with jobs := [.done (some c), tell] } (.job 1)
      (.answered (.notify 0 c.toResult) ()) { σ with jobs := [.done (some c), .done none] } :=
    .job rfl (.ask (r := .notify 0 c.toResult) ()) trivial
  refine ⟨_, _, hash, s, c, ((hcalled.append hwaited).snoc hjoined).snoc htold, hsettled, hdone, rfl,
    ?_⟩
  have hnone := spawns_of_plain hplain (.job 0)
  rw [spawns] at hspawns hnone ⊢
  simp only [List.filterMap_append, hspawns, hnone]
  rfl

theorem every_acceptance_has_one_outcome_reported :
    ∃ (h : List (Agent × Exchange)) (τ : System (Except RelayError Unit)),
      Run reporting h τ ∧ (∀ i, (τ.calls i).Settled) ∧
      ((Books.after (fun _ => some "m") h).registries "m").value "chain-1" (.broadcast true) = 1 ∧
      h.countP (fun e => e.2.acceptedBy (Provider.exporting (fun _ => some "m") "m" "chain-1")) = 1 ∧
      ((Books.after (fun _ => some "m") h).registries "m").value "chain-1"
          (.confirmation "confirmed") +
        ((Books.after (fun _ => some "m") h).registries "m").value "chain-1"
          (.confirmation "failed") +
        ((Books.after (fun _ => some "m") h).registries "m").value "chain-1"
          (.confirmation "timed_out") = 1 ∧
      ∃ result, notices 0 h = [result] ∧ Tells τ h 0 result := by
  obtain ⟨h, τ, hash, s, c, hr, hsettled, hdone, hjobs, hspawns⟩ := exists_reported_run
  obtain ⟨hcounters, _, _, _, _, houtcomes, hcallers⟩ :=
    every_acceptance_has_one_outcome hr (fun _ => some "m") "m" "chain-1"
  obtain ⟨haccepted, hwaiting, _⟩ := hcounters hsettled
  obtain ⟨htold, hnotnil⟩ := hcallers 0 _ rfl
  have hone : ((Books.after (fun _ => some "m") h).registries "m").value "chain-1"
      (.broadcast true) = 1 := by
    rw [hwaiting, hspawns]
    rfl
  refine ⟨h, τ, hr, hsettled, hone, haccepted ▸ hone, ?_, ?_⟩
  · rw [houtcomes]
    simp [hjobs, hspawns, waited, List.range_succ, Provider.exporting, Provider.twice]
  · refine htold.resolve_left (hnotnil ⟨_, hdone⟩ fun q hq => ?_)
    rw [hjobs] at hq
    simp only [List.mem_cons, List.not_mem_nil, or_false] at hq
    obtain rfl | rfl := hq
    · exact ⟨_, rfl⟩
    · exact ⟨_, rfl⟩

end System

end PacketRelay
