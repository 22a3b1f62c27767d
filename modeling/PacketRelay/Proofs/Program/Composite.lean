import PacketRelay.Proofs.Program.Cancelling

/-!
# Composite programs in time

A run of a composite program is a run of its first part, or a run of the first part to its end and
then one of the second.  What happens decides where a program stands, so this can be told from what
happened.
-/

namespace PacketRelay

/-- A stage of the first part of a composite program. -/
def Stage.bind {α β : Type} (f : α → Program β) : Stage α → Stage β
  | .running p => .running (p.bind f)
  | .waiting r next interrupt =>
    .waiting r (fun a => (next a).bind f) (interrupt.map fun i => (i.1, i.2.bind f))

namespace Moment

variable {α β : Type} {f : α → Program β} {F F' : Set Nat} {e : Occurrence}
  {es : List Occurrence}

theorem Step.unique {m m₁ m₂ : Moment α} (h₁ : Step m e m₁) (h₂ : Step m e m₂) : m₁ = m₂ := by
  cases h₁ <;> cases h₂ <;> rfl

theorem Run.unique {m m₁ m₂ : Moment α} (h₁ : Run m es m₁) (h₂ : Run m es m₂) : m₁ = m₂ := by
  induction h₁ with
  | refl m =>
      cases h₂
      rfl
  | step hstep _ ih =>
      obtain _ | ⟨hstep', hrest⟩ := h₂
      obtain rfl := hstep.unique hstep'
      exact ih hrest

theorem Step.bind {stage stage' : Stage α} (hstep : Step ⟨F, stage⟩ e ⟨F', stage'⟩) :
    Step ⟨F, stage.bind f⟩ e ⟨F', stage'.bind f⟩ := by
  cases hstep with
  | ask => exact .ask
  | watch hlive => exact .watch hlive
  | skip hn => exact .skip hn
  | @answer _ r next interrupt a hlive =>
      refine .answer a fun s stop hs => ?_
      cases interrupt with
      | none => cases hs
      | some i =>
          cases hs
          exact hlive _ _ rfl
  | interrupt hn => exact .interrupt hn
  | fire n => exact .fire n

theorem Run.bind {m m' : Moment α} (hr : Run m es m') :
    Run ⟨m.fired, m.stage.bind f⟩ es ⟨m'.fired, m'.stage.bind f⟩ := by
  induction hr with
  | refl m => exact .refl _
  | step hstep _ ih => exact .step hstep.bind ih

/-- The first part moves on as long as it is not done. -/
theorem Step.of_bind {stage : Stage α} {m : Moment β} (hstep : Step ⟨F, stage.bind f⟩ e m) :
    (∃ a, stage = .running (.done a)) ∨
      ∃ stage', m.stage = stage'.bind f ∧ Step ⟨F, stage⟩ e ⟨m.fired, stage'⟩ := by
  rcases stage with p | ⟨r, next, _ | ⟨s, stop⟩⟩
  · cases p with
    | done a => exact .inl ⟨a, rfl⟩
    | ask r next =>
        cases hstep with
        | ask => exact .inr ⟨.waiting r next none, rfl, .ask⟩
        | fire n => exact .inr ⟨.running (.ask r next), rfl, .fire n⟩
    | watch s r next stop =>
        cases hstep with
        | watch hlive => exact .inr ⟨.waiting r next (some (s, stop)), rfl, .watch hlive⟩
        | skip hn => exact .inr ⟨.running stop, rfl, .skip hn⟩
        | fire n => exact .inr ⟨.running (.watch s r next stop), rfl, .fire n⟩
  · cases hstep with
    | answer a _ => exact .inr ⟨.running (next a), rfl, .answer a nofun⟩
    | fire n => exact .inr ⟨.waiting r next none, rfl, .fire n⟩
  · cases hstep with
    | answer a hlive =>
        refine .inr ⟨.running (next a), rfl, .answer a ?_⟩
        rintro s' stop' ⟨⟩
        exact hlive s _ rfl
    | interrupt hn => exact .inr ⟨.running stop, rfl, .interrupt hn⟩
    | fire n => exact .inr ⟨.waiting r next (some (s, stop)), rfl, .fire n⟩

theorem Run.of_bind {stage : Stage α} {m : Moment β} (hr : Run ⟨F, stage.bind f⟩ es m) :
    (∃ stage', m.stage = stage'.bind f ∧ Run ⟨F, stage⟩ es ⟨m.fired, stage'⟩) ∨
      ∃ es₁ es₂ F' a, es = es₁ ++ es₂ ∧ Run ⟨F, stage⟩ es₁ ⟨F', .running (.done a)⟩ ∧
        Run ⟨F', .running (f a)⟩ es₂ m := by
  generalize hm₀ : (⟨F, stage.bind f⟩ : Moment β) = m₀ at hr
  induction hr generalizing F stage with
  | refl m =>
      subst hm₀
      exact .inl ⟨stage, rfl, .refl _⟩
  | @step m m' m'' e es hstep hrest ih =>
      subst hm₀
      obtain ⟨a, rfl⟩ | ⟨stage₁, hstage, hstep₁⟩ := hstep.of_bind
      · exact .inr ⟨[], e :: es, F, a, rfl, .refl _, .step hstep hrest⟩
      -- the rest is again a run of a composite program, from the stage that the first part came to
      · have hm : (⟨m'.fired, stage₁.bind f⟩ : Moment β) = m' := by rw [← hstage]
        obtain ⟨stage', hend, hrun⟩ | ⟨es₁, es₂, F', a, rfl, hrun, hsecond⟩ := ih hm
        · exact .inl ⟨stage', hend, .step hstep₁ hrun⟩
        · exact .inr ⟨e :: es₁, es₂, F', a, rfl, .step hstep₁ hrun, hsecond⟩

theorem Run.after_first {p : Program α} {es₁ es₂ : List Occurrence} {a : α} {m : Moment β}
    (hr : Run ⟨F, .running (p.bind f)⟩ (es₁ ++ es₂) m)
    (hfirst : Run ⟨F, .running p⟩ es₁ ⟨F', .running (.done a)⟩) :
    Run ⟨F', .running (f a)⟩ es₂ m := by
  obtain ⟨m', hr₁, hr₂⟩ := run_append_iff.mp hr
  obtain rfl := hr₁.unique (hfirst.bind (f := f))
  exact hr₂

/-- Nothing but signals can happen when a program is done. -/
theorem Run.stage_of_done {a : α} {m : Moment α} (hr : Run ⟨F, .running (.done a)⟩ es m) :
    m.stage = .running (.done a) := by
  generalize hm₀ : (⟨F, .running (.done a)⟩ : Moment α) = m₀ at hr
  induction hr generalizing F with
  | refl m =>
      subst hm₀
      rfl
  | step hstep _ ih =>
      subst hm₀
      cases hstep with
      | fire n => exact ih rfl

variable {n : Nat} {X : Request → Prop} {c : α → Prop} {d : β → Prop}

/-- A stopped first part leaves it to the second to wind up. -/
theorem stopped_bind {stage : Stage α} (hstage : stage.Stopped n X c)
    (hf : ∀ a, c a → (f a).Winds X d) : (stage.bind f).Stopped n X d := by
  cases stage with
  | running p =>
      obtain hwinds | ⟨r, next, stop, rfl, hstop⟩ := hstage
      · exact .inl (hwinds.bind hf)
      · exact .inr ⟨r, _, _, rfl, hstop.bind hf⟩
  | waiting r next interrupt =>
      obtain ⟨rfl, hwinds⟩ | ⟨stop, rfl, hstop⟩ := hstage
      · exact .inl ⟨rfl, hwinds.bind hf⟩
      · exact .inr ⟨_, rfl, hstop.bind hf⟩

/-- A history without stops is one that happens when no signal ever fires. -/
theorem exists_run_of_reaches {p q : Program α} {h : List Exchange} (hpq : p.Reaches h q)
    (hh : ∀ x ∈ h, x.IsAnswer) : ∃ es, Run ⟨∅, .running p⟩ es ⟨∅, .running q⟩ := by
  induction hpq with
  | refl p => exact ⟨[], .refl _⟩
  | step hstep _ ih =>
      obtain ⟨hx, hrest⟩ := List.forall_mem_cons.mp hh
      obtain ⟨es, hr⟩ := ih hrest
      cases hstep with
      | ask a => exact ⟨_, .step .ask (.step (.answer a nofun) hr)⟩
      | @watch s r next stop a =>
          have hlive : ¬ s.FiredIn ∅ := by cases s <;> exact id
          exact ⟨_, .watched hlive a hr⟩
      | stop => exact hx.elim

end Moment

end PacketRelay
