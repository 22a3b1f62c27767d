import Mathlib.Algebra.Ring.Nat
import PacketRelay.Proofs.Program.Guard

/-!
# Programs by the clock

The clock counts milliseconds.  A pause takes the time that was asked for, unless a signal ends it;
an answer from a node, a lock or another job may take any time; and everything else is answered at
once.  A history is kept with the time that each exchange took, so the clock can be told at each
of them.
-/

namespace PacketRelay

/-- Requests whose answer may take time. -/
def Request.Lasts : Request → Prop
  | .pause _ | .call .. | .await .. | .awaitEither .. | .acquire _ | .join _ | .listen _ => True
  | _ => False

/-- The signal did not stop the request. -/
def Exchange.Spared (s : Signal) : Exchange → Prop
  | .answered .. => True
  | .stopped n _ => s ≠ some n

theorem Exchange.IsAnswer.spared {x : Exchange} (hx : x.IsAnswer) (s : Signal) : x.Spared s := by
  cases x with
  | answered r a => trivial
  | stopped n r => exact hx.elim

/-- An exchange, and the milliseconds that it took. -/
structure Timed where
  exchange : Exchange
  millis : Nat

namespace Timed

def instant (x : Exchange) : Timed := ⟨x, 0⟩

/-- The exchange may be so when the clock shows this time at its beginning. -/
def Fits (clock : Nat) (x : Timed) : Prop :=
  (x.exchange.request.Lasts ∨ x.millis = 0) ∧ match x.exchange with
    | .answered .now time => time = clock
    | .answered (.pause length) _ => x.millis = length
    | .stopped _ (.pause length) => x.millis ≤ length
    -- whatever else lasts may be stopped or answered at any time
    | _ => True

def exchanges (h : List Timed) : List Exchange := h.map exchange

def elapsed (h : List Timed) : Nat := (h.map millis).sum

@[simp] theorem exchanges_nil : exchanges [] = [] := rfl

@[simp] theorem exchanges_cons (x : Timed) (h : List Timed) :
    exchanges (x :: h) = x.exchange :: exchanges h := rfl

@[simp] theorem exchanges_append (h h' : List Timed) :
    exchanges (h ++ h') = exchanges h ++ exchanges h' := List.map_append

@[simp] theorem elapsed_nil : elapsed [] = 0 := rfl

@[simp] theorem elapsed_cons (x : Timed) (h : List Timed) :
    elapsed (x :: h) = x.millis + elapsed h := by simp [elapsed]

@[simp] theorem elapsed_append (h h' : List Timed) :
    elapsed (h ++ h') = elapsed h + elapsed h' := by simp [elapsed]

/-- Every exchange is as `P` says, which is told the time at its beginning. -/
def Throughout (P : Nat → Timed → Prop) : Nat → List Timed → Prop
  | _, [] => True
  | clock, x :: h => P clock x ∧ Throughout P (clock + x.millis) h

theorem throughout_append_iff {P : Nat → Timed → Prop} {clock : Nat} {h h' : List Timed} :
    Throughout P clock (h ++ h') ↔
      Throughout P clock h ∧ Throughout P (clock + elapsed h) h' := by
  induction h generalizing clock with
  | nil => simp [Throughout]
  | cons x h ih => simp only [List.cons_append, Throughout, ih, elapsed_cons, and_assoc, Nat.add_assoc]

theorem Throughout.exists_of_mem {P : Nat → Timed → Prop} {clock : Nat} {h : List Timed} {x : Timed}
    (hh : Throughout P clock h) (hx : x ∈ h) : ∃ clock', P clock' x := by
  induction h generalizing clock with
  | nil => cases hx
  | cons y h ih =>
      obtain rfl | hx := List.mem_cons.mp hx
      · exact ⟨clock, hh.1⟩
      · exact ih hh.2 hx

/-- The history is one that the clock allows. -/
def Clocked (clock : Nat) (h : List Timed) : Prop := Throughout (fun clock x => x.Fits clock) clock h

theorem clocked_append_iff {clock : Nat} {h h' : List Timed} :
    Clocked clock (h ++ h') ↔ Clocked clock h ∧ Clocked (clock + elapsed h) h' :=
  throughout_append_iff

end Timed

open Timed

/-- Every request has an answer that the clock allows. -/
theorem Request.exists_fits (clock : Nat) (r : Request) :
    ∃ a millis, Fits clock ⟨.answered r a, millis⟩ := by
  cases r with
  | now => exact ⟨clock, 0, .inr rfl, rfl⟩
  | pause length => exact ⟨(), length, .inl trivial, rfl⟩
  | _ =>
      obtain ⟨a⟩ := Request.nonempty_answer _
      exact ⟨a, 0, .inr rfl, trivial⟩

namespace Program

variable {α β : Type} {clock : Nat} {s : Signal}

/-- From the time on the program comes to another one by a history that the clock allows. -/
def ReachesFrom (clock : Nat) (p : Program α) (h : List Timed) (q : Program α) : Prop :=
  Clocked clock h ∧ p.Reaches (exchanges h) q

def YieldsFrom (clock : Nat) (p : Program α) (h : List Timed) (a : α) : Prop :=
  p.ReachesFrom clock h (.done a)

theorem ReachesFrom.append {p q r : Program α} {h h' : List Timed} (hp : p.ReachesFrom clock h q)
    (hq : q.ReachesFrom (clock + elapsed h) h' r) : p.ReachesFrom clock (h ++ h') r := by
  refine ⟨clocked_append_iff.mpr ⟨hp.1, hq.1⟩, ?_⟩
  rw [exchanges_append]
  exact hp.2.append hq.2

theorem yieldsFrom_done_iff {a b : α} {h : List Timed} :
    (done a).YieldsFrom clock h b ↔ h = [] ∧ b = a := by
  constructor
  · rintro ⟨_, hy⟩
    obtain ⟨hnil, rfl⟩ := yields_done_iff.mp hy
    exact ⟨List.map_eq_nil_iff.mp hnil, rfl⟩
  · rintro ⟨rfl, rfl⟩
    exact ⟨trivial, .refl _⟩

theorem yieldsFrom_bind_iff {p : Program α} {f : α → Program β} {h : List Timed} {b : β} :
    (p.bind f).YieldsFrom clock h b ↔ ∃ h₁ a h₂, h = h₁ ++ h₂ ∧ p.YieldsFrom clock h₁ a ∧
      (f a).YieldsFrom (clock + elapsed h₁) h₂ b := by
  constructor
  · rintro ⟨hclock, hy⟩
    obtain ⟨x₁, a, x₂, hx, hp, hf⟩ := yields_bind_iff.mp hy
    obtain ⟨h₁, h₂, rfl, rfl, rfl⟩ := List.map_eq_append_iff.mp hx
    obtain ⟨hclock₁, hclock₂⟩ := clocked_append_iff.mp hclock
    exact ⟨h₁, a, h₂, rfl, ⟨hclock₁, hp⟩, hclock₂, hf⟩
  · rintro ⟨h₁, a, h₂, rfl, hp, hf⟩
    refine ReachesFrom.append ⟨hp.1, ?_⟩ hf
    exact hp.2.bind f

theorem yieldsFrom_ask_iff {r : Request} {next : r.Answer → Program α} {h : List Timed} {b : α} :
    (ask r next).YieldsFrom clock h b ↔ ∃ a millis h', h = ⟨.answered r a, millis⟩ :: h' ∧
      Fits clock ⟨.answered r a, millis⟩ ∧ (next a).YieldsFrom (clock + millis) h' b := by
  constructor
  · rintro ⟨hclock, hy⟩
    obtain ⟨a, x, hx, hnext⟩ := yields_ask_iff.mp hy
    obtain ⟨⟨_, millis⟩, h', rfl, rfl, rfl⟩ := List.map_eq_cons_iff.mp hx
    exact ⟨a, millis, h', rfl, hclock.1, hclock.2, hnext⟩
  · rintro ⟨a, millis, h', rfl, hfits, hnext⟩
    exact ⟨⟨hfits, hnext.1⟩, .step (.ask a) hnext.2⟩

theorem yieldsFrom_request_iff {r : Request} {h : List Timed} {a : r.Answer} :
    (request r).YieldsFrom clock h a ↔
      ∃ millis, h = [⟨.answered r a, millis⟩] ∧ Fits clock ⟨.answered r a, millis⟩ := by
  rw [request, yieldsFrom_ask_iff]
  constructor
  · rintro ⟨b, millis, h', rfl, hfits, hdone⟩
    obtain ⟨rfl, rfl⟩ := yieldsFrom_done_iff.mp hdone
    exact ⟨millis, rfl, hfits⟩
  · rintro ⟨millis, rfl, hfits⟩
    exact ⟨a, millis, [], rfl, hfits, yieldsFrom_done_iff.mpr ⟨rfl, rfl⟩⟩

/-- Every program can be brought to its end by answers that the clock allows. -/
theorem exists_yieldsFrom (p : Program α) (clock : Nat) :
    ∃ h a, p.YieldsFrom clock h a ∧ ∀ x ∈ h, x.exchange.IsAnswer := by
  -- a request that is watched goes on as one that is not, as every request is answered here
  have hanswered {r : Request} {next : r.Answer → Program α} {q : Program α} (clock : Nat)
      (hq : ∀ a, Step q (.answered r a) (next a))
      (ih : ∀ a clock, ∃ h b, (next a).YieldsFrom clock h b ∧ ∀ x ∈ h, x.exchange.IsAnswer) :
      ∃ h b, q.YieldsFrom clock h b ∧ ∀ x ∈ h, x.exchange.IsAnswer := by
    obtain ⟨a, millis, hfits⟩ := r.exists_fits clock
    obtain ⟨h, b, hnext, hh⟩ := ih a (clock + millis)
    refine ⟨⟨.answered r a, millis⟩ :: h, b, ⟨⟨hfits, hnext.1⟩, .step (hq a) hnext.2⟩, ?_⟩
    exact List.forall_mem_cons.mpr ⟨trivial, hh⟩
  induction p generalizing clock with
  | done a => exact ⟨[], a, yieldsFrom_done_iff.mpr ⟨rfl, rfl⟩, by simp⟩
  | ask r next ih => exact hanswered clock (fun a => .ask a) ih
  | watch s r next stop ih _ => exact hanswered clock (fun a => .watch a) ih

end Program

/-- The request whose answer the program waits for. -/
def Program.next? {α : Type} : Program α → Option Request
  | .done _ => none
  | .ask r _ | .watch _ r _ _ => some r

/-- The program comes to a result by a history that the clock allows and in which the signal stops
nothing. -/
def Program.YieldsSpared {α : Type} (s : Signal) (clock : Nat) (p : Program α) (h : List Timed)
    (a : α) : Prop :=
  p.YieldsFrom clock h a ∧ ∀ x ∈ h, x.exchange.Spared s

namespace Program

variable {α β : Type} {clock : Nat} {s : Signal}

theorem yieldsSpared_done_iff {a b : α} {h : List Timed} :
    (done a).YieldsSpared s clock h b ↔ h = [] ∧ b = a := by
  rw [YieldsSpared, yieldsFrom_done_iff]
  constructor
  · exact And.left
  · rintro ⟨rfl, rfl⟩
    exact ⟨⟨rfl, rfl⟩, by simp⟩

theorem yieldsSpared_bind_iff {p : Program α} {f : α → Program β} {h : List Timed} {b : β} :
    (p.bind f).YieldsSpared s clock h b ↔ ∃ h₁ a h₂, h = h₁ ++ h₂ ∧ p.YieldsSpared s clock h₁ a ∧
      (f a).YieldsSpared s (clock + elapsed h₁) h₂ b := by
  constructor
  · rintro ⟨hy, hh⟩
    obtain ⟨h₁, a, h₂, rfl, hp, hf⟩ := yieldsFrom_bind_iff.mp hy
    obtain ⟨hh₁, hh₂⟩ := List.forall_mem_append.mp hh
    exact ⟨h₁, a, h₂, rfl, ⟨hp, hh₁⟩, hf, hh₂⟩
  · rintro ⟨h₁, a, h₂, rfl, ⟨hp, hh₁⟩, hf, hh₂⟩
    exact ⟨yieldsFrom_bind_iff.mpr ⟨h₁, a, h₂, rfl, hp, hf⟩, List.forall_mem_append.mpr ⟨hh₁, hh₂⟩⟩

theorem yieldsSpared_request_iff {r : Request} {h : List Timed} {a : r.Answer} :
    (request r).YieldsSpared s clock h a ↔
      ∃ millis, h = [⟨.answered r a, millis⟩] ∧ Fits clock ⟨.answered r a, millis⟩ := by
  rw [YieldsSpared, yieldsFrom_request_iff]
  constructor
  · exact And.left
  · rintro ⟨millis, rfl, hfits⟩
    exact ⟨⟨millis, rfl, hfits⟩, List.forall_mem_singleton.mpr trivial⟩

theorem yieldsSpared_instant_iff {r : Request} (hlasts : ¬ r.Lasts) {h : List Timed}
    {a : r.Answer} : (request r).YieldsSpared s clock h a ↔
      h = [instant (.answered r a)] ∧ Fits clock (instant (.answered r a)) := by
  rw [yieldsSpared_request_iff]
  constructor
  · rintro ⟨millis, rfl, hmillis, hfits⟩
    obtain rfl : millis = 0 := hmillis.resolve_left hlasts
    exact ⟨rfl, hmillis, hfits⟩
  · rintro ⟨rfl, hfits⟩
    exact ⟨0, rfl, hfits⟩

theorem exists_step_of_next? {p : Program α} {r : Request} (hp : p.next? = some r)
    (a : r.Answer) : ∃ q, Step p (.answered r a) q := by
  cases p with
  | done b => cases hp
  | ask r' next =>
      obtain rfl := Option.some.inj hp
      exact ⟨_, .ask a⟩
  | watch s r' next stop =>
      obtain rfl := Option.some.inj hp
      exact ⟨_, .watch a⟩

/-- A part of a run goes on to the end of one, with an answer to what it waits for. -/
theorem ReachesFrom.exists_yieldsSpared {p q : Program α} {h : List Timed} {r : Request}
    (hp : p.ReachesFrom clock h q) (hh : ∀ x ∈ h, x.exchange.Spared s) (hq : q.next? = some r) :
    ∃ a millis h' b, p.YieldsSpared s clock (h ++ ⟨.answered r a, millis⟩ :: h') b := by
  obtain ⟨a, millis, hfits⟩ := r.exists_fits (clock + elapsed h)
  obtain ⟨q', hstep⟩ := exists_step_of_next? hq a
  obtain ⟨h', b, hq', hh'⟩ := q'.exists_yieldsFrom (clock + elapsed h + millis)
  refine ⟨a, millis, h', b, hp.append ⟨⟨hfits, hq'.1⟩, .step hstep hq'.2⟩, ?_⟩
  exact List.forall_mem_append.mpr
    ⟨hh, List.forall_mem_cons.mpr ⟨trivial, fun x hx => (hh' x hx).spared s⟩⟩

end Program

namespace Attempt

open Program

variable {α : Type} {s : Signal} {clock : Nat} {h : List Timed}

theorem yields_watchAll_of {stop p : Program α} {h : List Exchange} {a : α} (hp : p.Yields h a) :
    (watchAll s stop p).Yields h a := by
  induction p generalizing h with
  | done b => exact hp
  | ask r next ih =>
      obtain ⟨b, h', rfl, hnext⟩ := yields_ask_iff.mp hp
      exact .step (.watch b) (ih b hnext)
  | watch s' r next stop' ih _ =>
      obtain ⟨b, h', rfl, hnext⟩ | ⟨n, h', rfl, rfl, hstop⟩ := yields_watch_iff.mp hp
      · exact .step (.watch b) (ih b hnext)
      · exact .step .stop hstop

/-- The histories of a guarded part from a time on that end with its signal. -/
inductive Dropped (s : Signal) (x : Attempt α) (clock : Nat) : List Timed → Prop where
  | fired {n : Nat} : s = some n → Dropped s x clock [instant (.stopped n .rest)]
  | halfway {n millis : Nat} {h : List Timed} {q : Request}
      {next : q.Answer → Program (Except RelayError α)} :
    s = some n → x.run.ReachesFrom clock h (.ask q next) →
      Dropped s x clock (instant (.answered .rest ()) :: (h ++ [⟨.stopped n q, millis⟩]))

theorem Dropped.exists_stopped {x : Attempt α} (hd : Dropped s x clock h) :
    ∃ y ∈ h, ¬ y.exchange.Spared s := by
  cases hd with
  | @fired n hs => exact ⟨instant (.stopped n .rest), by simp, fun hspared => hspared hs⟩
  | @halfway n millis h q next hs _ =>
      exact ⟨⟨.stopped n q, millis⟩, by simp, fun hspared => hspared hs⟩

/-- A guarded part runs to its end, or its signal drops it. -/
theorem yieldsFrom_guard {x : Attempt α} {r : Except RelayError α}
    (hy : (guard s x).run.YieldsFrom clock h r) :
    (∃ h', h = instant (.answered .rest ()) :: h' ∧ x.run.YieldsFrom clock h' r) ∨
      Dropped s x clock h ∧ r = .error .cancelled := by
  obtain ⟨hclock, hrun⟩ := hy
  generalize hxs : exchanges h = xs at hrun
  -- the look at the signal is an exchange of its own, and takes no time
  cases yields_guard hrun with
  | fired hs =>
      obtain ⟨⟨_, millis⟩, h', rfl, rfl, hnil⟩ := List.map_eq_cons_iff.mp hxs
      obtain rfl := List.map_eq_nil_iff.mp hnil
      obtain rfl : millis = 0 := hclock.1.1.resolve_left not_false
      exact .inr ⟨.fired hs, rfl⟩
  | finished hx =>
      obtain ⟨⟨_, millis⟩, h', rfl, rfl, rfl⟩ := List.map_eq_cons_iff.mp hxs
      obtain rfl : millis = 0 := hclock.1.1.resolve_left not_false
      exact .inl ⟨h', rfl, hclock.2, hx⟩
  | dropped hs hx =>
      obtain ⟨⟨_, millis⟩, h', rfl, rfl, hrest⟩ := List.map_eq_cons_iff.mp hxs
      obtain rfl : millis = 0 := hclock.1.1.resolve_left not_false
      obtain ⟨h', _, rfl, rfl, hstop⟩ := List.map_eq_append_iff.mp hrest
      obtain ⟨⟨_, millis⟩, _, rfl, rfl, hnil⟩ := List.map_eq_cons_iff.mp hstop
      obtain rfl := List.map_eq_nil_iff.mp hnil
      exact .inr ⟨.halfway hs ⟨(clocked_append_iff.mp hclock.2).1, hx⟩, rfl⟩

theorem yieldsSpared_guard_iff {x : Attempt α} {r : Except RelayError α} :
    (guard s x).run.YieldsSpared s clock h r ↔
      ∃ h', h = instant (.answered .rest ()) :: h' ∧ x.run.YieldsSpared s clock h' r := by
  constructor
  · rintro ⟨hy, hh⟩
    obtain ⟨h', rfl, hx⟩ | ⟨hdropped, _⟩ := yieldsFrom_guard hy
    · exact ⟨h', rfl, hx, (List.forall_mem_cons.mp hh).2⟩
    · obtain ⟨y, hy, hstopped⟩ := hdropped.exists_stopped
      exact absurd (hh y hy) hstopped
  · rintro ⟨h', rfl, ⟨hclock, hyields⟩, hh⟩
    refine ⟨⟨⟨⟨.inr rfl, trivial⟩, hclock⟩, ?_⟩, List.forall_mem_cons.mpr ⟨trivial, hh⟩⟩
    rw [guard_run_eq]
    exact reaches_watch (r := .rest) (a := ()) (yields_watchAll_of hyields)

theorem yieldsFrom_request_iff {q : Request} {r : Except RelayError q.Answer} :
    (Attempt.request q).run.YieldsFrom clock h r ↔ ∃ a millis,
      h = [⟨.answered q a, millis⟩] ∧ Fits clock ⟨.answered q a, millis⟩ ∧ r = .ok a := by
  have hrequest : (Attempt.request q).run = (Program.request q).bind fun a => done (.ok a) := rfl
  rw [hrequest, yieldsFrom_bind_iff]
  constructor
  · rintro ⟨h₁, a, h₂, rfl, hask, hdone⟩
    obtain ⟨millis, rfl, hfits⟩ := Program.yieldsFrom_request_iff.mp hask
    obtain ⟨rfl, rfl⟩ := yieldsFrom_done_iff.mp hdone
    exact ⟨a, millis, rfl, hfits, rfl⟩
  · rintro ⟨a, millis, rfl, hfits, rfl⟩
    exact ⟨_, a, [], rfl, Program.yieldsFrom_request_iff.mpr ⟨millis, rfl, hfits⟩,
      yieldsFrom_done_iff.mpr ⟨rfl, rfl⟩⟩

theorem yieldsSpared_request_iff {q : Request} {r : Except RelayError q.Answer} :
    (Attempt.request q).run.YieldsSpared s clock h r ↔ ∃ a millis,
      h = [⟨.answered q a, millis⟩] ∧ Fits clock ⟨.answered q a, millis⟩ ∧ r = .ok a := by
  rw [YieldsSpared, yieldsFrom_request_iff]
  constructor
  · exact And.left
  · rintro ⟨a, millis, rfl, hfits, rfl⟩
    exact ⟨⟨a, millis, rfl, hfits, rfl⟩, List.forall_mem_singleton.mpr trivial⟩

end Attempt

end PacketRelay
