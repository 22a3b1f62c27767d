import PacketRelay.Proofs.Program.Composite
import PacketRelay.Proofs.Simulation.Polling

/-!
# Rounds of the simulated world

A round polls its steps and their jobs in turn until all steps are finished.  Whatever the order,
the result of each step is one to which its program can come in time.
-/

namespace PacketRelay

/-- A stage whose results are mapped. -/
def Stage.map {α β : Type} (f : α → β) : Stage α → Stage β
  | .running p => .running (p.bind fun a => .done (f a))
  | .waiting r next interrupt =>
    .waiting r (fun a => (next a).bind fun a => .done (f a))
      (interrupt.map fun i => (i.1, i.2.bind fun a => .done (f a)))

theorem Stage.map_eq_bind {α β : Type} (f : α → β) (stage : Stage α) :
    stage.map f = stage.bind fun a => .done (f a) := by
  cases stage <;> rfl

namespace Moment

variable {α β : Type} {f : α → β}

theorem Step.of_map {F F' : Set Nat} {stage : Stage α} {stage' : Stage β} {e : Occurrence}
    (hstep : Step ⟨F, stage.map f⟩ e ⟨F', stage'⟩) :
    ∃ stage₁, stage' = stage₁.map f ∧ Step ⟨F, stage⟩ e ⟨F', stage₁⟩ := by
  simp only [Stage.map_eq_bind] at hstep ⊢
  obtain ⟨a, rfl⟩ | hfirst := hstep.of_bind
  · cases hstep with
    | fire n => exact ⟨.running (.done a), rfl, .fire n⟩
  · exact hfirst

theorem Run.of_map {F : Set Nat} {stage : Stage α} {m : Moment β} {es : List Occurrence}
    (hr : Run ⟨F, stage.map f⟩ es m) :
    ∃ stage₁, m.stage = stage₁.map f ∧ Run ⟨F, stage⟩ es ⟨m.fired, stage₁⟩ := by
  generalize hm₀ : (⟨F, stage.map f⟩ : Moment β) = m₀ at hr
  induction hr generalizing F stage with
  | refl m =>
      subst hm₀
      exact ⟨stage, rfl, .refl _⟩
  | @step m m' m'' e es hstep _ ih =>
      subst hm₀
      rcases hstep.of_map with ⟨stage₁, hstage, hstep₁⟩
      have hm : (⟨m'.fired, stage₁.map f⟩ : Moment β) = m' := by rw [← hstage]
      rcases ih hm with ⟨stage₂, hend, hrest⟩
      exact ⟨stage₂, hend, .step hstep₁ hrest⟩

/-- A run to a mapped result is a run to the result. -/
theorem Run.done_of_map {F F' : Set Nat} {p : Program α} {a : α} {es : List Occurrence}
    (hf : Function.Injective f)
    (hr : Run ⟨F, .running (p.bind fun a => .done (f a))⟩ es ⟨F', .running (.done (f a))⟩) :
    Run ⟨F, .running p⟩ es ⟨F', .running (.done a)⟩ := by
  have hmapped : Run ⟨F, (Stage.running p).map f⟩ es ⟨F', .running (.done (f a))⟩ := hr
  rcases hmapped.of_map with ⟨stage, hend, hrun⟩
  rcases stage with p' | _
  · cases p' with
    | done b =>
        cases hf (Program.done.inj (Stage.running.inj hend))
        exact hrun
    | ask r next => cases hend
    | watch s r next stop => cases hend
  · cases hend

end Moment

namespace Simulation.World

variable {ρ : Type}

/-- The strand shows a stage to which its program has come. -/
def Tracked (w : World ρ) (F : Set Nat) (p : Program (Outcome ρ)) (id : Nat) : Prop :=
  ∃ es stage s, Moment.Run ⟨F, .running p⟩ es ⟨w.firedSet, stage⟩ ∧ w.strands[id]? = some s ∧
    s.status.Shows stage

section Tracked

variable {w w' : World ρ} {F : Set Nat} {p : Program (Outcome ρ)} {id self : Nat}

theorem Tracked.of_keeps (ht : w.Tracked F p id) (h : w.Keeps w') : w'.Tracked F p id := by
  unfold Tracked at ht ⊢
  rwa [h.firedSet_eq, h.strands]

theorem Tracked.poll (ht : w.Tracked F p id) (self : Nat) : (w.poll self).Tracked F p id := by
  rcases ht with ⟨es, stage, s, hrun, hs, hshows⟩
  by_cases hself : id = self
  · subst hself
    rcases comes_poll hs hshows with ⟨es', stage', s', hrun', hs', hshows'⟩
    exact ⟨es ++ es', stage', s', hrun.append hrun', hs', hshows'⟩
  · obtain ⟨⟨ks, hfired⟩, hothers⟩ := w.spares_poll self
    refine ⟨es ++ ks.map .fired, stage, s, hrun.append ?_, hothers id s hself hs, hshows⟩
    rw [hfired]
    exact run_fires ks _ stage

end Tracked

theorem keeps_advance {w w' : World ρ} (h : w.advance = some w') : w.Keeps w' := by
  unfold advance at h
  split at h
  · cases h
  · next time _ =>
    cases h
    have hclock : w.Keeps { w with clock := time } := ⟨rfl, rfl⟩
    exact hclock.trans (preserves_foldl_wake _ _).toKeeps

/-- What polls and the clock preserve is preserved by a drive, which ends with the results of all
steps if it has any. -/
theorem drive_preserves {P : World ρ → Prop} (hpoll : ∀ w self, P w → P (w.poll self))
    (hkeeps : ∀ w w', w.Keeps w' → P w → P w') (ids : List Nat) (fuel : Nat) (stepsFirst : Bool)
    {w : World ρ} (hw : P w) :
    P (drive ids fuel stepsFirst w).1 ∧ ∀ results, (drive ids fuel stepsFirst w).2 = some results →
      (drive ids fuel stepsFirst w).1.results? ids = some results := by
  have hpolls (w : World ρ) (hw : P w) : P (ids.foldl poll w) :=
    List.foldlRecOn ids poll hw fun w hw self _ => hpoll w self hw
  induction fuel generalizing w stepsFirst with
  | zero => exact ⟨hw, nofun⟩
  | succ fuel ih =>
      cases stepsFirst with
      | true =>
          unfold drive
          split
          · have hasleep : P { w with woken := false } := hkeeps w _ ⟨rfl, rfl⟩ hw
            dsimp only
            split
            · next hresults =>
              refine ⟨hpolls _ hasleep, ?_⟩
              rintro results ⟨⟩
              exact hresults
            · exact ih false (hpolls _ hasleep)
          · exact ih false hw
      | false =>
          unfold drive
          split
          · next job rest _ =>
            have hready : P { w with ready := rest } := hkeeps w _ ⟨rfl, rfl⟩ hw
            exact ih false (hpoll _ job hready)
          · split
            · exact ih true hw
            · split
              · exact ⟨hw, nofun⟩
              · next hadvance => exact ih true (hkeeps w _ (keeps_advance hadvance) hw)

/-- A step that is to be polled first. -/
def begin (w : World ρ) (program : Program ρ) : World ρ :=
  { w with
    timers := w.timers + 1
    strands := w.strands.push
      ⟨false, .waiting (.timer w.clock w.timers fun () => Outcome.step <$> program) none⟩ }

theorem firedSet_foldl_begin (programs : List (Program ρ)) (w : World ρ) :
    (programs.foldl begin w).firedSet = w.firedSet := by
  induction programs generalizing w with
  | nil => rfl
  | cons program programs ih => exact ih (w.begin program)

theorem getElem?_foldl_begin_of_lt (programs : List (Program ρ)) {w : World ρ} {id : Nat}
    (hid : id < w.strands.size) : (programs.foldl begin w).strands[id]? = w.strands[id]? := by
  induction programs generalizing w with
  | nil => rfl
  | cons program programs ih =>
      have hsize : id < (w.begin program).strands.size := by
        simp only [begin, Array.size_push]
        omega
      rw [List.foldl_cons, ih hsize, begin, Array.getElem?_push_lt hid,
        Array.getElem?_eq_getElem hid]

theorem exists_getElem?_foldl_begin {programs : List (Program ρ)} {i : Nat} {program : Program ρ}
    (hi : programs[i]? = some program) (w : World ρ) : ∃ due order,
    (programs.foldl begin w).strands[w.strands.size + i]? =
      some ⟨false, .waiting (.timer due order fun () => Outcome.step <$> program) none⟩ := by
  induction programs generalizing w i with
  | nil => cases hi
  | cons first programs ih =>
      rw [List.foldl_cons]
      have hsize : (w.begin first).strands.size = w.strands.size + 1 := Array.size_push _
      cases i with
      | zero =>
          cases hi
          refine ⟨w.clock, w.timers, ?_⟩
          rw [getElem?_foldl_begin_of_lt programs (by omega), Nat.add_zero]
          exact Array.getElem?_push_size
      | succ i =>
          rcases ih hi (w.begin first) with ⟨due, order, hget⟩
          rw [hsize, Nat.add_right_comm] at hget
          exact ⟨due, order, hget⟩

theorem exists_getElem?_of_mapM {α β : Type} {f : α → Option β} {l : List α} {l' : List β}
    (h : l.mapM f = some l') {i : Nat} {a : α} (hi : l[i]? = some a) :
    ∃ b, f a = some b ∧ l'[i]? = some b := by
  induction l generalizing l' i with
  | nil => cases hi
  | cons a' l ih =>
      simp only [List.mapM_cons, Option.bind_eq_bind, Option.bind_eq_some_iff] at h
      obtain ⟨b, hb, bs, hbs, hl'⟩ := h
      cases hl'
      cases i with
      | zero =>
          cases hi
          exact ⟨b, hb, rfl⟩
      | succ i => exact ih hbs hi

/-- The result of each step of a round is one to which its program can come in time. -/
theorem runRound_sound {w w' : World ρ} {programs : List (Program ρ)} {results : List ρ}
    (h : w.runRound programs = (w', some results)) {i : Nat} {program : Program ρ}
    (hi : programs[i]? = some program) : ∃ es result, results[i]? = some result ∧
      Moment.Run ⟨w.firedSet, .running program⟩ es ⟨w'.firedSet, .running (.done result)⟩ := by
  let ids := (List.range programs.length).map (w.strands.size + ·)
  let first : World ρ := { programs.foldl begin w with woken := true }
  have hround : w.runRound programs = drive ids roundLimit true first := rfl
  have hbegun : first.Tracked w.firedSet (Outcome.step <$> program) (w.strands.size + i) := by
    rcases exists_getElem?_foldl_begin hi w with ⟨due, order, hget⟩
    refine ⟨[], _, _, ?_, hget, .ready due order _⟩
    have hfired : first.firedSet = w.firedSet := firedSet_foldl_begin programs w
    rw [hfired]
    exact .refl _
  obtain ⟨htracked, hresults⟩ := drive_preserves
    (P := fun v => v.Tracked w.firedSet (Outcome.step <$> program) (w.strands.size + i))
    (fun _ self ht => ht.poll self) (fun _ _ hkeeps ht => ht.of_keeps hkeeps) ids roundLimit true
    hbegun
  rw [← hround, h] at htracked hresults
  obtain ⟨hlength, _⟩ := List.getElem?_eq_some_iff.mp hi
  have hid : ids[i]? = some (w.strands.size + i) := by
    simp [ids, List.getElem?_range hlength]
  rcases exists_getElem?_of_mapM (hresults results rfl) hid with ⟨result, hresult, hi'⟩
  rcases htracked with ⟨es, stage, s, hrun, hs, hshows⟩
  have hfinished : s.status = .finished (.step result) := by
    rw [statusOf, hs, Option.map_some] at hresult
    split at hresult
    · next hstatus =>
      cases hresult
      exact Option.some.inj hstatus
    · cases hresult
  rw [hfinished] at hshows
  cases hshows with
  | finished _ =>
      refine ⟨es, result, hi', Moment.Run.done_of_map (f := Outcome.step) ?_ hrun⟩
      intro a b hab
      exact Outcome.step.inj hab

end Simulation.World

end PacketRelay
