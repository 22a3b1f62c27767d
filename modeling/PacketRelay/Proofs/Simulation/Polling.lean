import PacketRelay.Proofs.Program.Timeline
import PacketRelay.Proofs.Simulation.Frame

/-!
# Strands of the simulated world

What the simulated world does to a program is what may happen to the program in time.  A strand runs
until it has to wait; when it is polled again, its signal comes before what it waits for.
-/

namespace PacketRelay.Simulation

variable {ρ : Type}

namespace World

def firedSet (w : World ρ) : Set Nat := {n | w.fired (some n) = true}

theorem firedIn_firedSet (w : World ρ) (s : Signal) : s.FiredIn w.firedSet ↔ w.fired s = true := by
  cases s with
  | none => exact ⟨False.elim, nofun⟩
  | some n => rfl

theorem keeps_stopWaiting (w : World ρ) (self : Nat)
    (on : Suspension (Unit → Program (Outcome ρ))) : w.Keeps (w.stopWaiting self on) := by
  cases on with
  | lock key result =>
      change w.Keeps (w.abandon self key)
      unfold abandon
      dsimp only
      split
      · exact (preserves_passOn _ _).toKeeps
      · exact ⟨rfl, rfl⟩
  | _ => exact ⟨rfl, rfl⟩

theorem keeps_afterRun (w : World ρ) (self : Nat) (status : Status (Outcome ρ)) :
    w.Keeps (w.afterRun self status) := by
  cases status with
  | finished result => exact (preserves_foldl_wake _ _).toKeeps
  | waiting on interrupt => exact ⟨rfl, rfl⟩

theorem keeps_exportTo (w : World ρ) (p : Provider) (f : Registry → Registry) :
    w.Keeps (w.exportTo p f) := by
  unfold exportTo
  split <;> exact ⟨rfl, rfl⟩

theorem keeps_spend (w : World ρ) (p : Provider) (fees : List Coin) : w.Keeps (w.spend p fees) := by
  unfold spend
  split
  · exact ⟨rfl, rfl⟩
  · have hstation (station' : Station) : w.Keeps (w.setStation p station') := ⟨rfl, rfl⟩
    split
    · exact ⟨rfl, rfl⟩
    · exact (hstation _).trans (keeps_exportTo _ _ _)

/-- Only signals of the list have fired besides, and the strands are where they were. -/
def Extends (w w' : World ρ) (ks : List Nat) : Prop :=
  w'.firedSet = {k | k ∈ ks} ∪ w.firedSet ∧
    ∀ (id : Nat) (s : Strand ρ), w.strands[id]? = some s → w'.strands[id]? = some s

theorem Extends.trans {w₁ w₂ w₃ : World ρ} {ks ks' : List Nat} (h : w₁.Extends w₂ ks)
    (h' : w₂.Extends w₃ ks') : w₁.Extends w₃ (ks ++ ks') := by
  refine ⟨?_, fun id s hs => h'.2 id s (h.2 id s hs)⟩
  rw [h'.1, h.1]
  ext k
  simp [or_assoc, or_left_comm]

theorem getElem?_addJob {w : World ρ} {program : Program (Option Confirmation)} {id : Nat}
    {s : Strand ρ} (hs : w.strands[id]? = some s) :
    (w.addJob program).1.strands[id]? = some s := by
  obtain ⟨hid, _⟩ := Array.getElem?_eq_some_iff.mp hs
  simp only [addJob, timer]
  rw [Array.getElem?_push_lt hid, ← hs, Array.getElem?_eq_getElem hid]

theorem Keeps.firedSet_eq {w w' : World ρ} (h : w.Keeps w') : w'.firedSet = w.firedSet := by
  unfold firedSet fired
  rw [h.signals]

theorem Keeps.extends {w w' : World ρ} (h : w.Keeps w') : w.Extends w' [] := by
  refine ⟨?_, by simp [h.strands]⟩
  rw [h.firedSet_eq]
  simp

theorem exists_extends_fire (w : World ρ) (s : Signal) : ∃ ks, w.Extends (w.fire s) ks := by
  cases s with
  | none => exact ⟨[], Keeps.extends ⟨rfl, rfl⟩⟩
  | some id =>
      have hkeeps := (preserves_foldl_wake (w.watchedBy id)
        { w with signals := w.signals.setIfInBounds id true }).toKeeps
      refine ⟨if id < w.signals.size then [id] else [], ?_, by simp [fire, hkeeps.strands]⟩
      rw [fire, hkeeps.firedSet_eq]
      ext n
      simp only [firedSet, fired, Array.getD_eq_getD_getElem?, Array.getElem?_setIfInBounds]
      by_cases hid : id = n
      · subst hid
        by_cases hsize : id < w.signals.size <;> simp [hsize]
      · by_cases hsize : id < w.signals.size <;> simp [hid, hsize, Ne.symm hid]

theorem exists_extends_addSignal (w : World ρ) (millis : Nat) :
    ∃ ks, w.Extends (w.addSignal millis).1 ks := by
  refine ⟨if millis = 0 then [w.signals.size] else [], ?_, ?_⟩
  · have hsignals : (w.addSignal millis).1.signals = w.signals.push (millis = 0) := by
      unfold addSignal
      dsimp only
      split <;> rfl
    ext n
    simp only [firedSet, fired, hsignals, Array.getD_eq_getD_getElem?, Array.getElem?_push]
    by_cases hn : n = w.signals.size
    · by_cases hmillis : millis = 0 <;> simp [hn, hmillis]
    · by_cases hmillis : millis = 0 <;> simp [hn, hmillis]
  · intro id s hs
    unfold addSignal
    dsimp only
    split
    · exact hs
    · exact getElem?_addJob hs

/-- Only a request to fire a signal, or for one that fires at once, does so. -/
theorem exists_extends_answer (w : World ρ) (self : Nat) (r : Request) :
    ∃ ks, w.Extends (w.answer self r).1 ks := by
  cases r with
  | fire s => exact w.exists_extends_fire s
  | signal millis => exact w.exists_extends_addSignal millis
  | spawn p j =>
      refine ⟨[], ?_, fun id s => getElem?_addJob⟩
      have hsame : (w.answer self (.spawn p j)).1.firedSet = w.firedSet := rfl
      simp [hsame]
  | record p m => exact ⟨[], (w.keeps_exportTo p (·.count p.chainId m)).extends⟩
  | spend p fees => exact ⟨[], (w.keeps_spend p fees).extends⟩
  | _ => exact ⟨[], (w.preserves_answer self (by trivial)).toKeeps.extends⟩

theorem run_fires {α : Type} (ks : List Nat) (F : Set Nat) (stage : Stage α) :
    Moment.Run ⟨F, stage⟩ (ks.map .fired) ⟨{k | k ∈ ks} ∪ F, stage⟩ := by
  induction ks generalizing F with
  | nil =>
      have hempty : {k : Nat | k ∈ []} ∪ F = F := by simp
      rw [hempty]
      exact .refl _
  | cons k ks ih =>
      have hcons : {k' | k' ∈ k :: ks} ∪ F = {k' | k' ∈ ks} ∪ insert k F := by
        ext k'
        simp [or_assoc]
      rw [hcons]
      exact .step (.fire k) (ih _)

theorem Extends.run {w w' : World ρ} {ks : List Nat} (h : w.Extends w' ks) {α : Type}
    (stage : Stage α) : Moment.Run ⟨w.firedSet, stage⟩ (ks.map .fired) ⟨w'.firedSet, stage⟩ := by
  rw [h.1]
  exact run_fires ks _ stage

end World

/-- The status of a strand whose program has come to a stage. -/
inductive Status.Shows {α : Type} : Status α → Stage α → Prop where
  | ready (due order : Nat) (p : Program α) :
    Shows (.waiting (.timer due order fun () => p) none) (.running p)
  | finished (result : α) : Shows (.finished result) (.running (.done result))
  | waiting {r : Request} {next : r.Answer → Program α} (on : Suspension r.Answer)
      (interrupt : Option (Signal × Program α)) :
    Shows (.waiting (on.map fun a () => next a) interrupt) (.waiting r next interrupt)

namespace World

/-- A program that the world runs until it has to wait. -/
theorem exists_run (self : Nat) (p : Program (Outcome ρ)) (w : World ρ) :
    (∃ es stage, Moment.Run ⟨w.firedSet, .running p⟩ es ⟨(run self p w).1.firedSet, stage⟩ ∧
      (run self p w).2.Shows stage) ∧ ∃ ks, w.Extends (run self p w).1 ks := by
  induction p generalizing w with
  | done result => exact ⟨⟨[], _, .refl _, .finished result⟩, [], Keeps.extends ⟨rfl, rfl⟩⟩
  | ask r next ih =>
      obtain ⟨ks, hks⟩ := w.exists_extends_answer self r
      unfold run
      rcases h : w.answer self r with ⟨w', a | on⟩
      · rw [h] at hks
        rcases ih a w' with ⟨⟨es, stage, hrun, hshows⟩, ks', hks'⟩
        have hrest := (hks.run _).append hrun
        exact ⟨⟨_, stage, .step .ask (.step (.answer a nofun) hrest), hshows⟩, _, hks.trans hks'⟩
      · rw [h] at hks
        exact ⟨⟨_, _, .step .ask (hks.run _), .waiting on none⟩, ks, hks⟩
  | watch s r next stop ih ihs =>
      unfold run
      by_cases hfired : w.fired s = true
      · rw [if_pos hfired]
        rcases ihs w with ⟨⟨es, stage, hrun, hshows⟩, hks⟩
        cases s with
        | none => cases hfired
        | some n => exact ⟨⟨_, stage, .step (.skip hfired) hrun, hshows⟩, hks⟩
      · rw [if_neg hfired]
        have hlive : ¬ s.FiredIn w.firedSet := (w.firedIn_firedSet s).not.mpr hfired
        obtain ⟨ks, hks⟩ := w.exists_extends_answer self r
        rcases h : w.answer self r with ⟨w', a | on⟩
        · rw [h] at hks
          rcases ih a w' with ⟨⟨es, stage, hrun, hshows⟩, ks', hks'⟩
          have hrest := (hks.run _).append hrun
          exact ⟨⟨_, stage, .watched hlive a hrest, hshows⟩, _, hks.trans hks'⟩
        · rw [h] at hks
          refine ⟨⟨_, _, .step (.watch hlive) (hks.run _), ?_⟩, ks, hks⟩
          exact .waiting on (some (s, stop))

/-- Only signals have fired besides, and strands other than this one are where they were. -/
def Spares (w w' : World ρ) (self : Nat) : Prop :=
  (∃ ks : List Nat, w'.firedSet = {k | k ∈ ks} ∪ w.firedSet) ∧
    ∀ (id : Nat) (s : Strand ρ), id ≠ self → w.strands[id]? = some s → w'.strands[id]? = some s

theorem spares_refl (w : World ρ) (self : Nat) : w.Spares w self :=
  ⟨⟨[], by simp⟩, fun _ _ _ => id⟩

theorem Keeps.spares {w w' w'' : World ρ} {self : Nat} (h : w.Keeps w') (h' : w'.Spares w'' self) :
    w.Spares w'' self := by
  unfold Spares at h' ⊢
  rwa [← h.firedSet_eq, ← h.strands]

/-- The strand has come by a run to the stage that it shows. -/
def Comes (w w' : World ρ) (self : Nat) (stage : Stage (Outcome ρ)) : Prop :=
  ∃ es stage' s', Moment.Run ⟨w.firedSet, stage⟩ es ⟨w'.firedSet, stage'⟩ ∧
    w'.strands[self]? = some s' ∧ s'.status.Shows stage'

theorem runStrand_keeps (w : World ρ) (self : Nat) (s : Strand ρ) (p : Program (Outcome ρ)) :
    ((run self p w).1.setStatus self s (run self p w).2).Keeps (w.runStrand self s p) :=
  keeps_afterRun _ _ _

theorem spares_runStrand (w : World ρ) (self : Nat) (s : Strand ρ) (p : Program (Outcome ρ)) :
    w.Spares (w.runStrand self s p) self := by
  have hkeeps := w.runStrand_keeps self s p
  obtain ⟨_, ks, hfired, hstrands⟩ := exists_run self p w
  refine ⟨⟨ks, hkeeps.firedSet_eq.trans hfired⟩, ?_⟩
  intro id s' hid hs'
  rw [hkeeps.strands, setStatus, Array.getElem?_setIfInBounds_ne hid.symm]
  exact hstrands id s' hs'

theorem comes_runStrand {w : World ρ} {self : Nat} {s : Strand ρ} (hs : w.strands[self]? = some s)
    (p : Program (Outcome ρ)) : w.Comes (w.runStrand self s p) self (.running p) := by
  have hkeeps := w.runStrand_keeps self s p
  obtain ⟨⟨es, stage, hrun, hshows⟩, _, _, hstrands⟩ := exists_run self p w
  obtain ⟨hself, _⟩ := Array.getElem?_eq_some_iff.mp (hstrands self s hs)
  refine ⟨es, stage, { s with status := (run self p w).2 }, ?_, ?_, hshows⟩
  · rw [hkeeps.firedSet_eq]
    exact hrun
  · rw [hkeeps.strands, setStatus, Array.getElem?_setIfInBounds_self_of_lt hself]

/-- What a strand waits for can be there only with an answer. -/
theorem exists_answer_of_resume? {α : Type} {w : World ρ} {self : Nat} {on : Suspension α}
    {next : α → Program (Outcome ρ)} {f : Unit → Program (Outcome ρ)}
    (h : w.resume? self (on.map fun a () => next a) = some f) : ∃ a, f () = next a := by
  cases on with
  | timer due order result =>
      simp only [Suspension.map, resume?] at h
      split at h <;> cases h
      exact ⟨_, rfl⟩
  | lock key result =>
      simp only [Suspension.map, resume?] at h
      split at h <;> cases h
      exact ⟨_, rfl⟩
  | job strand result =>
      obtain ⟨c, _, rfl⟩ := Option.map_eq_some_iff.mp h
      exact ⟨_, rfl⟩
  | report caller result =>
      simp only [Suspension.map, resume?] at h
      split at h <;> cases h
      exact ⟨_, rfl⟩

theorem fired_of_stopped? {w : World ρ} {interrupt : Option (Signal × Program (Outcome ρ))}
    {stop : Program (Outcome ρ)} (h : w.stopped? interrupt = some stop) :
    ∃ n, interrupt = some (some n, stop) ∧ n ∈ w.firedSet := by
  rcases interrupt with _ | ⟨_ | n, stop'⟩
  · cases h
  · cases h
  · simp only [stopped?] at h
    split at h
    · next hfired =>
      cases h
      exact ⟨n, rfl, hfired⟩
    · cases h

theorem not_firedIn_of_stopped? {w : World ρ} {s : Signal} {stop : Program (Outcome ρ)}
    (h : w.stopped? (some (s, stop)) = none) : ¬ s.FiredIn w.firedSet := by
  rw [firedIn_firedSet]
  intro hfired
  simp [stopped?, hfired] at h

theorem spares_poll (w : World ρ) (self : Nat) : w.Spares (w.poll self) self := by
  unfold poll
  split
  · exact w.spares_refl self
  · split
    · exact w.spares_refl self
    · split
      · exact (w.keeps_stopWaiting self _).spares (spares_runStrand _ self _ _)
      · split
        · exact w.spares_refl self
        · exact w.spares_runStrand self _ _

/-- Whenever a strand is polled, what the world does to it is what may happen to its program. -/
theorem comes_poll {w : World ρ} {self : Nat} {s : Strand ρ} {stage : Stage (Outcome ρ)}
    (hs : w.strands[self]? = some s) (hstage : s.status.Shows stage) :
    w.Comes (w.poll self) self stage := by
  have hidle (hpoll : w.poll self = w) : w.Comes (w.poll self) self stage := by
    rw [hpoll]
    exact ⟨[], stage, s, .refl _, hs, hstage⟩
  obtain ⟨background, status⟩ := s
  cases hstage with
  | ready due order p =>
      by_cases hdue : due ≤ w.clock
      · have hpoll : w.poll self = w.runStrand self
            ⟨background, .waiting (.timer due order fun () => p) none⟩ p := by
          simp only [poll, hs, stopped?, resume?, if_pos hdue]
        rw [hpoll]
        exact comes_runStrand hs p
      · apply hidle
        simp only [poll, hs, stopped?, resume?, if_neg hdue]
  | finished result =>
      apply hidle
      simp only [poll, hs]
  | @waiting r next on interrupt =>
      cases hstop : w.stopped? interrupt with
      | some stop =>
          obtain ⟨n, rfl, hn⟩ := fired_of_stopped? hstop
          have hkeeps := w.keeps_stopWaiting self (on.map fun a () => next a)
          have hpoll : w.poll self = (w.stopWaiting self (on.map fun a () => next a)).runStrand self
              ⟨background, .waiting (on.map fun a () => next a) (some (some n, stop))⟩ stop := by
            simp only [poll, hs, hstop]
          rw [← hkeeps.strands] at hs
          obtain ⟨es, stage', s', hrun, hshown⟩ := comes_runStrand hs stop
          rw [hkeeps.firedSet_eq] at hrun
          rw [hpoll]
          exact ⟨_, stage', s', .step (.interrupt hn) hrun, hshown⟩
      | none =>
          cases hresume : w.resume? self (on.map fun a () => next a) with
          | none =>
              apply hidle
              simp only [poll, hs, hstop, hresume]
          | some f =>
              obtain ⟨a, ha⟩ := exists_answer_of_resume? hresume
              have hpoll : w.poll self = w.runStrand self
                  ⟨background, .waiting (on.map fun a () => next a) interrupt⟩ (next a) := by
                simp only [poll, hs, hstop, hresume, ha]
              have hlive : ∀ s stop, interrupt = some (s, stop) → ¬ s.FiredIn w.firedSet := by
                rintro s stop rfl
                exact not_firedIn_of_stopped? hstop
              obtain ⟨es, stage', s', hrun, hshown⟩ := comes_runStrand hs (next a)
              rw [hpoll]
              exact ⟨_, stage', s', .step (.answer a hlive) hrun, hshown⟩

end World

end PacketRelay.Simulation
