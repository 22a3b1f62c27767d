import PacketRelay.Proofs.Program.Watched
import PacketRelay.Proofs.Retry.Attempts

/-!
# Programs that follow a protocol

A protocol moves between states by exchanges.  A program follows it if each exchange that the program
can make is a move, and the state at its end fits its result.  A history of such a program is a path
of the protocol.
-/

namespace PacketRelay

/-- A history as a path of the protocol `E`. -/
inductive Path {S : Type} (E : S → Exchange → S → Prop) : S → List Exchange → S → Prop where
  | nil (st : S) : Path E st [] st
  | cons {st st₁ st₂ : S} {x : Exchange} {h : List Exchange} :
    E st x st₁ → Path E st₁ h st₂ → Path E st (x :: h) st₂

theorem Path.exists_move {S : Type} {E : S → Exchange → S → Prop} {st st' : S}
    {h : List Exchange} (hpath : Path E st h st') {x : Exchange} (hx : x ∈ h) :
    ∃ st₁ st₂, E st₁ x st₂ := by
  induction hpath with
  | nil st => cases hx
  | cons hmove _ ih =>
      obtain rfl | hx := List.mem_cons.mp hx
      · exact ⟨_, _, hmove⟩
      · exact ih hx

namespace Program

variable {S α β : Type} {E : S → Exchange → S → Prop} {T : Exchange → Prop}

/-- From the state on, the program moves as `E` allows and ends as `post` says.  Only stops in `T`
are taken into account. -/
def Follows (E : S → Exchange → S → Prop) (T : Exchange → Prop) (post : S → α → Prop) :
    S → Program α → Prop
  | st, .done a => post st a
  | st, .ask r next => ∀ a, ∃ st', E st (.answered r a) st' ∧ Follows E T post st' (next a)
  | st, .watch s r next stop =>
    (∀ a, ∃ st', E st (.answered r a) st' ∧ Follows E T post st' (next a)) ∧
      ∀ n, s = some n → T (.stopped n r) →
        ∃ st', E st (.stopped n r) st' ∧ Follows E T post st' stop

theorem Step.follows {p q : Program α} {x : Exchange} {post : S → α → Prop} {st : S}
    (hstep : Step p x q) (hx : T x) (hp : Follows E T post st p) :
    ∃ st', E st x st' ∧ Follows E T post st' q := by
  cases hstep with
  | ask a => exact hp a
  | watch a => exact hp.1 a
  | stop => exact hp.2 _ rfl hx

/-- What a program that follows a protocol did is a path, and the rest of it follows on. -/
theorem Reaches.follows {p q : Program α} {h : List Exchange} {post : S → α → Prop} {st : S}
    (hreach : Reaches p h q) (hh : ∀ x ∈ h, T x) (hp : Follows E T post st p) :
    ∃ st', Path E st h st' ∧ Follows E T post st' q := by
  induction hreach generalizing st with
  | refl p => exact ⟨st, .nil st, hp⟩
  | step hstep _ ih =>
      obtain ⟨hx, hrest⟩ := List.forall_mem_cons.mp hh
      obtain ⟨st₁, hmove, hq⟩ := hstep.follows hx hp
      obtain ⟨st₂, hpath, hr⟩ := ih hrest hq
      exact ⟨st₂, .cons hmove hpath, hr⟩

theorem Follows.bind {p : Program α} {f : α → Program β} {mid : S → α → Prop}
    {post : S → β → Prop} {st : S} (hp : Follows E T mid st p)
    (hf : ∀ st a, mid st a → Follows E T post st (f a)) : Follows E T post st (p.bind f) := by
  induction p generalizing st with
  | done a => exact hf st a hp
  | ask r next ih =>
      intro a
      obtain ⟨st', hmove, hrest⟩ := hp a
      exact ⟨st', hmove, ih a hrest⟩
  | watch s r next stop ih ihs =>
      refine ⟨fun a => ?_, fun n hs hn => ?_⟩
      · obtain ⟨st', hmove, hrest⟩ := hp.1 a
        exact ⟨st', hmove, ih a hrest⟩
      · obtain ⟨st', hmove, hrest⟩ := hp.2 n hs hn
        exact ⟨st', hmove, ihs hrest⟩

theorem Follows.mono {p : Program α} {post post' : S → α → Prop} {st : S}
    (hp : Follows E T post st p) (hpost : ∀ st a, post st a → post' st a) :
    Follows E T post' st p := by
  rw [← p.bind_pure]
  exact hp.bind hpost

/-- A program that makes no move stays in its state, and ends with a result of its own. -/
theorem follows_of_asks {R : Request → Prop} {p : Program α} {st : S}
    (hstay : ∀ x : Exchange, R x.request → E st x st) (hp : Asks R p) :
    Follows E T (fun st' a => st' = st ∧ ∃ h, p.Yields h a) st p := by
  induction p with
  | done a => exact ⟨rfl, [], .refl _⟩
  | ask r next ih =>
      intro a
      refine ⟨st, hstay (.answered r a) hp.1, (ih a (hp.2 a)).mono ?_⟩
      rintro st' b ⟨rfl, h, hy⟩
      exact ⟨rfl, _, .step (.ask a) hy⟩
  | watch s r next stop ih ihs =>
      refine ⟨fun a => ?_, fun n hs _ => ?_⟩
      · refine ⟨st, hstay (.answered r a) hp.1, (ih a (hp.2.1 a)).mono ?_⟩
        rintro st' b ⟨rfl, h, hy⟩
        exact ⟨rfl, _, .step (.watch a) hy⟩
      · refine ⟨st, hstay (.stopped n r) hp.1, (ihs hp.2.2).mono ?_⟩
        rintro st' b ⟨rfl, h, hy⟩
        subst hs
        exact ⟨rfl, _, .step .stop hy⟩

/-- In a state that allows no exchange, a program that follows has its result. -/
theorem Follows.exists_done {p : Program α} {post : S → α → Prop} {st : S}
    (hp : Follows E T post st p) (hstuck : ∀ x st', ¬ E st x st') : ∃ a, p = .done a ∧ post st a := by
  cases p with
  | done a => exact ⟨a, rfl, hp⟩
  | ask r next =>
      obtain ⟨a⟩ := r.nonempty_answer
      obtain ⟨st', hmove, _⟩ := hp a
      exact absurd hmove (hstuck _ st')
  | watch s r next stop =>
      obtain ⟨a⟩ := r.nonempty_answer
      obtain ⟨st', hmove, _⟩ := hp.1 a
      exact absurd hmove (hstuck _ st')

end Program

namespace Attempt

open Program

variable {S α β : Type} {E : S → Exchange → S → Prop} {T : Exchange → Prop} {s : Signal}

theorem follows_bind {x : Attempt α} {f : α → Attempt β}
    {mid : S → Except RelayError α → Prop} {post : S → Except RelayError β → Prop} {st : S}
    (hx : Follows E T mid st x.run) (herror : ∀ st e, mid st (.error e) → post st (.error e))
    (hf : ∀ st a, mid st (.ok a) → Follows E T post st (f a).run) :
    Follows E T post st (x >>= f).run := by
  rw [ExceptT.run_bind, bind_eq]
  refine hx.bind fun st r hr => ?_
  cases r with
  | ok a => exact hf st a hr
  | error e => exact herror st e hr

theorem follows_request_bind {r : Request} {f : r.Answer → Attempt β}
    {post : S → Except RelayError β → Prop} {st : S}
    (hf : ∀ a, ∃ st', E st (.answered r a) st' ∧ Follows E T post st' (f a).run) :
    Follows E T post st (Attempt.request r >>= f).run := hf

/-- A guarded request is looked at, and then answered or stopped. -/
theorem follows_guard_request {r : Request} {post : S → Except RelayError r.Answer → Prop} {st : S}
    (hrest : E st (.answered .rest ()) st)
    (hlook : ∀ n, E st (.stopped n .rest) st ∧ post st (.error .cancelled))
    (hanswer : ∀ a, ∃ st', E st (.answered r a) st' ∧ post st' (.ok a))
    (hstop : ∀ n, ∃ st', E st (.stopped n r) st' ∧ post st' (.error .cancelled)) :
    Follows E T post st (guard s (Attempt.request r)).run :=
  ⟨fun _ => ⟨st, hrest, hanswer, fun n _ _ => hstop n⟩, fun n _ _ => ⟨st, hlook n⟩⟩

/-- A guard may stop a program at any request that it watches from then on. -/
theorem follows_watchAll {c : α} {p : Program α} {post : S → α → Prop} {st : S}
    (hstop : ∀ st r a st' n, E st (.answered r a) st' → T (.stopped n r) →
      ∃ st'', E st (.stopped n r) st'' ∧ post st'' c)
    (hp : Follows E T post st p) : Follows E T post st (watchAll s (.done c) p) := by
  induction p generalizing st with
  | done a => exact hp
  | ask r next ih =>
      refine ⟨fun a => ?_, fun n _ hn => ?_⟩
      · obtain ⟨st', hmove, hrest⟩ := hp a
        exact ⟨st', hmove, ih a hrest⟩
      · obtain ⟨a⟩ := r.nonempty_answer
        obtain ⟨st', hmove, _⟩ := hp a
        exact hstop st r a st' n hmove hn
  | watch s' r next stop ih _ =>
      refine ⟨fun a => ?_, hp.2⟩
      obtain ⟨st', hmove, hrest⟩ := hp.1 a
      exact ⟨st', hmove, ih a hrest⟩

theorem follows_guard {x : Attempt α} {post : S → Except RelayError α → Prop} {st : S}
    (hrest : E st (.answered .rest ()) st)
    (hstop : ∀ st r a st' n, E st (.answered r a) st' → T (.stopped n r) →
      ∃ st'', E st (.stopped n r) st'' ∧ post st'' (.error .cancelled))
    (hx : Follows E T post st x.run) : Follows E T post st (guard s x).run :=
  ⟨fun _ => ⟨st, hrest, follows_watchAll hstop hx⟩,
    fun n _ hn => hstop st .rest () st n hrest hn⟩

end Attempt

namespace RetryPolicy

open Program

variable {S α : Type} {E : S → Exchange → S → Prop} {T : Exchange → Prop} {s : Signal}
  {p : RetryPolicy} {scope : RetryScope} {operation : Nat → Attempt α} {st : S}

/-- A loop around guarded operations that leave the state as it was. -/
theorem follows_attemptsFrom
    (hloop : ∀ x : Exchange, scope.LoopRequest x.request → E st x st)
    (hop : ∀ n, Follows E T (fun st' _ => st' = st) st (Attempt.guard s (operation n)).run)
    (left n : Nat) (history : List String) :
    Follows E T (fun st' _ => st' = st) st (p.attemptsFrom scope s operation left n history) := by
  have hpure {β : Type} {q : Program β} (hq : Asks scope.LoopRequest q) :
      Follows E T (fun st' _ => st' = st) st q := (follows_of_asks hloop hq).mono fun _ _ h => h.1
  rw [attemptsFrom_eq]
  refine (hpure (asks_request (r := .attempting n) trivial)).bind fun _ _ hst => ?_
  rw [hst]
  refine (hop n).bind fun _ r hst => ?_
  rw [hst]
  cases r with
  | ok a => rfl
  | error e =>
      dsimp only
      split
      · rfl
      · cases left with
        | zero => rfl
        | succ left =>
            have hannounce : Asks scope.LoopRequest (scope.announce n e) := by
              unfold RetryScope.announce
              split
              · next hscope => exact asks_request hscope
              · trivial
            have hpause : Asks scope.LoopRequest
                (Attempt.guard s (Attempt.request (.pause p.delay.millis))).run :=
              Attempt.asks_guard trivial (Attempt.asks_request trivial)
            refine (hpure hannounce).bind fun _ _ hst => ?_
            rw [hst]
            refine Attempt.follows_bind (hpure hpause) (fun _ _ hst => hst) fun _ _ hst => ?_
            rw [hst]
            exact follows_attemptsFrom hloop hop left (n + 1) (history ++ [e.message])

end RetryPolicy

end PacketRelay
