import Mathlib.Data.Set.Insert
import PacketRelay.Proofs.Program.Watched

/-!
# Programs in time

A request is made first and answered later, and a signal may fire at any moment, also while an
answer is due.  A request that is watched by a fired signal is not made; one that was made before is
not answered any more, even if its answer is there.
-/

namespace PacketRelay

/-- The signal is one of those that have fired. -/
def Signal.FiredIn (fired : Set Nat) : Signal → Prop
  | none => False
  | some n => n ∈ fired

/-- What happens at a moment. -/
inductive Occurrence where
  | made (r : Request)
  | answered (r : Request) (a : r.Answer)
  /-- The program goes on without an answer to the request, which was made or not. -/
  | stopped (signal : Nat) (r : Request)
  | fired (signal : Nat)

/-- Where a program stands: it goes on at once, or a request of it was made and is not answered.  A
signal may end the wait, and then it goes on in another way. -/
inductive Stage (α : Type) where
  | running (p : Program α)
  | waiting (r : Request) (next : r.Answer → Program α) (interrupt : Option (Signal × Program α))

/-- The signals that have fired, and where a program stands. -/
structure Moment (α : Type) where
  fired : Set Nat
  stage : Stage α

namespace Moment

variable {α : Type}

inductive Step : Moment α → Occurrence → Moment α → Prop where
  | ask {F : Set Nat} {r : Request} {next : r.Answer → Program α} :
    Step ⟨F, .running (.ask r next)⟩ (.made r) ⟨F, .waiting r next none⟩
  | watch {F : Set Nat} {s : Signal} {r : Request} {next : r.Answer → Program α}
      {stop : Program α} : ¬ s.FiredIn F →
      Step ⟨F, .running (.watch s r next stop)⟩ (.made r) ⟨F, .waiting r next (some (s, stop))⟩
  | skip {F : Set Nat} {n : Nat} {r : Request} {next : r.Answer → Program α}
      {stop : Program α} : n ∈ F →
      Step ⟨F, .running (.watch (some n) r next stop)⟩ (.stopped n r) ⟨F, .running stop⟩
  | answer {F : Set Nat} {r : Request} {next : r.Answer → Program α}
      {interrupt : Option (Signal × Program α)} (a : r.Answer) :
      (∀ s stop, interrupt = some (s, stop) → ¬ s.FiredIn F) →
      Step ⟨F, .waiting r next interrupt⟩ (.answered r a) ⟨F, .running (next a)⟩
  | interrupt {F : Set Nat} {n : Nat} {r : Request} {next : r.Answer → Program α}
      {stop : Program α} : n ∈ F →
      Step ⟨F, .waiting r next (some (some n, stop))⟩ (.stopped n r) ⟨F, .running stop⟩
  | fire {F : Set Nat} {stage : Stage α} (n : Nat) : Step ⟨F, stage⟩ (.fired n) ⟨insert n F, stage⟩

inductive Run : Moment α → List Occurrence → Moment α → Prop where
  | refl (m : Moment α) : Run m [] m
  | step {m m' m'' : Moment α} {e : Occurrence} {es : List Occurrence} :
    Step m e m' → Run m' es m'' → Run m (e :: es) m''

theorem Run.append {m m' m'' : Moment α} {es es' : List Occurrence} (hr : Run m es m')
    (hr' : Run m' es' m'') : Run m (es ++ es') m'' := by
  induction hr with
  | refl m => exact hr'
  | step hstep _ ih => exact .step hstep (ih hr')

theorem run_append_iff {m m'' : Moment α} {es es' : List Occurrence} :
    Run m (es ++ es') m'' ↔ ∃ m', Run m es m' ∧ Run m' es' m'' := by
  constructor
  · intro hr
    induction es generalizing m with
    | nil => exact ⟨m, .refl m, hr⟩
    | cons e es ih =>
        rcases hr with _ | ⟨hstep, hrest⟩
        rcases ih hrest with ⟨m', hm', hr'⟩
        exact ⟨m', .step hstep hm', hr'⟩
  · rintro ⟨m', hr, hr'⟩
    exact hr.append hr'

theorem Step.fired_mono {m m' : Moment α} {e : Occurrence} (hstep : Step m e m') {n : Nat}
    (hn : n ∈ m.fired) : n ∈ m'.fired := by
  cases hstep with
  | fire k => exact Set.mem_insert_of_mem k hn
  | _ => exact hn

theorem Run.fired_mono {m m' : Moment α} {es : List Occurrence} (hr : Run m es m') {n : Nat}
    (hn : n ∈ m.fired) : n ∈ m'.fired := by
  induction hr with
  | refl m => exact hn
  | step hstep _ ih => exact ih (hstep.fired_mono hn)

theorem Step.fired_mem {m m' : Moment α} {n : Nat} (hstep : Step m (.fired n) m') :
    n ∈ m'.fired := by
  cases hstep with
  | fire n => exact Set.mem_insert n _

/-- A watched request is answered as long as the signal has not fired. -/
theorem Run.watched {F : Set Nat} {s : Signal} {r : Request} {next : r.Answer → Program α}
    {stop : Program α} {m : Moment α} {es : List Occurrence} (hlive : ¬ s.FiredIn F) (a : r.Answer)
    (hr : Run ⟨F, .running (next a)⟩ es m) :
    Run ⟨F, .running (.watch s r next stop)⟩ (.made r :: .answered r a :: es) m := by
  refine .step (.watch hlive) (.step (.answer a ?_) hr)
  rintro s' stop' ⟨⟩
  exact hlive

/-- What was exchanged so far, without the request that is not answered yet. -/
def exchanges : List Occurrence → List Exchange
  | [] => []
  | .answered r a :: es => .answered r a :: exchanges es
  | .stopped n r :: es => .stopped n r :: exchanges es
  | _ :: es => exchanges es

end Moment

/-- The program that is left, as it was when the request was made. -/
def Stage.program {α : Type} : Stage α → Program α
  | .running p => p
  | .waiting r next none => .ask r next
  | .waiting r next (some (s, stop)) => .watch s r next stop

namespace Moment

variable {α : Type}

/-- A program only moves on by an exchange. -/
theorem Step.reaches {m m' : Moment α} {e : Occurrence} (hstep : Step m e m') :
    m.stage.program.Reaches (exchanges [e]) m'.stage.program := by
  cases hstep with
  | ask => exact .refl _
  | watch _ => exact .refl _
  | skip _ => exact .step .stop (.refl _)
  | @answer F r next interrupt a _ =>
      rcases interrupt with _ | ⟨s, stop⟩
      · exact .step (.ask a) (.refl _)
      · exact .step (.watch a) (.refl _)
  | interrupt _ => exact .step .stop (.refl _)
  | fire n => exact .refl _

theorem exchanges_cons (e : Occurrence) (es : List Occurrence) :
    exchanges (e :: es) = exchanges [e] ++ exchanges es := by
  cases e <;> rfl

/-- What happens in time is a history of the program. -/
theorem Run.reaches {m m' : Moment α} {es : List Occurrence} (hr : Run m es m') :
    m.stage.program.Reaches (exchanges es) m'.stage.program := by
  induction hr with
  | refl m => exact .refl _
  | @step m m' m'' e es hstep _ ih =>
      rw [exchanges_cons]
      exact hstep.reaches.append ih

end Moment

end PacketRelay
