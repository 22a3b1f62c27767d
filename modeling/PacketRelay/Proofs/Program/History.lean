import PacketRelay.Program.Basic

/-!
# Histories of programs

A program runs by exchanges with its surroundings: a request is answered, or a signal stops a
watched one.  Nothing is assumed of the answers, nor of the moment at which a signal fires, so a
fact about all histories holds for every node, every script and every cancellation.
-/

namespace PacketRelay

inductive Exchange where
  | answered (r : Request) (a : r.Answer)
  /-- The signal fired before the request was answered. -/
  | stopped (signal : Nat) (r : Request)

def Exchange.request : Exchange → Request
  | .answered r _ => r
  | .stopped _ r => r

@[simp] theorem Exchange.request_answered (r : Request) (a : r.Answer) :
    (Exchange.answered r a).request = r := rfl

@[simp] theorem Exchange.request_stopped (n : Nat) (r : Request) :
    (Exchange.stopped n r).request = r := rfl

/-- No signal stopped the request. -/
def Exchange.IsAnswer : Exchange → Prop
  | .answered .. => True
  | .stopped .. => False

/-- The request neither takes a lock nor gives one back. -/
def Request.LockFree : Request → Prop
  | .acquire _ | .release .. => False
  | _ => True

theorem NodeCall.nonempty_answer (c : NodeCall) : Nonempty c.Answer := by
  cases c with
  | broadcast tx => exact ⟨.error ⟨.rpc "", none⟩⟩
  | _ => exact ⟨.error (.rpc "")⟩

/-- Every request has an answer, so that no run is stuck. -/
theorem Request.nonempty_answer (r : Request) : Nonempty r.Answer := by
  cases r with
  | call p c => exact c.nonempty_answer
  | await c ticket => exact c.nonempty_answer
  | start p c => exact c.nonempty_answer.elim fun a => ⟨.inl a⟩
  | awaitEither c₁ t₁ c₂ t₂ => exact c₁.nonempty_answer.elim fun a => ⟨.inl a⟩
  | address p => exact ⟨.ok ""⟩
  | sign p document => exact ⟨.ok []⟩
  | acquire p => exact ⟨.initial⟩
  | registry name => exact ⟨.empty⟩
  | join job => exact ⟨.failed none .cancelled⟩
  | signal millis => exact ⟨(none : Option Nat)⟩
  | take name => exact ⟨(none : Option Nat)⟩
  | totals p => exact ⟨([] : List (String × Nat))⟩
  | listen caller => exact ⟨([] : List (Except RelayError TxResponse))⟩
  | now => exact ⟨(0 : Nat)⟩
  | spawn p j => exact ⟨(0 : Nat)⟩
  | enroll => exact ⟨(0 : Nat)⟩
  | _ => exact ⟨()⟩

namespace Program

variable {α β : Type}

/-- One exchange, and what is left of the program. -/
inductive Step : Program α → Exchange → Program α → Prop where
  | ask {r : Request} {next : r.Answer → Program α} (a : r.Answer) :
    Step (.ask r next) (.answered r a) (next a)
  | watch {s : Signal} {r : Request} {next : r.Answer → Program α} {stop : Program α}
      (a : r.Answer) : Step (.watch s r next stop) (.answered r a) (next a)
  | stop {n : Nat} {r : Request} {next : r.Answer → Program α} {stop : Program α} :
    Step (.watch (some n) r next stop) (.stopped n r) stop

/-- A history that leads from one program to another. -/
inductive Reaches : Program α → List Exchange → Program α → Prop where
  | refl (p : Program α) : Reaches p [] p
  | step {p q r : Program α} {x : Exchange} {h : List Exchange} :
    Step p x q → Reaches q h r → Reaches p (x :: h) r

/-- A history of a whole run, and its result. -/
def Yields (p : Program α) (h : List Exchange) (a : α) : Prop := Reaches p h (.done a)

theorem Reaches.append {p q r : Program α} {h h' : List Exchange} (hp : Reaches p h q)
    (hq : Reaches q h' r) : Reaches p (h ++ h') r := by
  induction hp with
  | refl p => exact hq
  | step hstep _ ih => exact .step hstep (ih hq)

theorem reaches_append_iff {p r : Program α} {h h' : List Exchange} :
    Reaches p (h ++ h') r ↔ ∃ q, Reaches p h q ∧ Reaches q h' r := by
  constructor
  · intro hp
    induction h generalizing p with
    | nil => exact ⟨p, .refl p, hp⟩
    | cons x h ih =>
        obtain _ | ⟨hstep, hrest⟩ := hp
        obtain ⟨q, hq, hr⟩ := ih hrest
        exact ⟨q, .step hstep hq, hr⟩
  · rintro ⟨q, hp, hq⟩
    exact hp.append hq

theorem reaches_nil_iff {p q : Program α} : Reaches p [] q ↔ p = q := by
  constructor
  · rintro (_ | _)
    rfl
  · rintro rfl
    exact .refl p

theorem Step.unique {p q q' : Program α} {x : Exchange} (hq : Step p x q) (hq' : Step p x q') :
    q = q' := by
  cases hq with
  | ask a => cases hq'; rfl
  | watch a => cases hq'; rfl
  | stop => cases hq'; rfl

/-- What was exchanged decides where a program stands. -/
theorem Reaches.unique {p q q' : Program α} {h : List Exchange} (hq : Reaches p h q)
    (hq' : Reaches p h q') : q = q' := by
  induction hq with
  | refl p => exact reaches_nil_iff.mp hq'
  | step hstep _ ih =>
      obtain _ | ⟨hstep', hrest⟩ := hq'
      obtain rfl := hstep.unique hstep'
      exact ih hrest

theorem Reaches.of_done {a : α} {q : Program α} {h : List Exchange} (hq : Reaches (done a) h q) :
    h = [] ∧ q = done a := by
  obtain _ | ⟨⟨⟩, _⟩ := hq
  exact ⟨rfl, rfl⟩

/-- Programs are finite trees.  If every request has an answer that keeps a history good, every run
can be brought to its end so. -/
theorem exists_yields_within {Good : List Exchange → Prop}
    (hanswer : ∀ h r, Good h → ∃ a, Good (h ++ [.answered r a])) (p : Program α)
    {g : List Exchange} (hg : Good g) : ∃ h a, p.Yields h a ∧ Good (g ++ h) := by
  induction p generalizing g with
  | done a => exact ⟨[], a, .refl _, by simpa using hg⟩
  | ask r next ih =>
      obtain ⟨a, ha⟩ := hanswer g r hg
      obtain ⟨h, b, hy, hgood⟩ := ih a ha
      exact ⟨_ :: h, b, .step (.ask a) hy, by simpa using hgood⟩
  | watch s r next stop ih _ =>
      obtain ⟨a, ha⟩ := hanswer g r hg
      obtain ⟨h, b, hy, hgood⟩ := ih a ha
      exact ⟨_ :: h, b, .step (.watch a) hy, by simpa using hgood⟩

theorem exists_yields (p : Program α) : ∃ h a, p.Yields h a := by
  have hanswer (_ : List Exchange) (r : Request) (_ : True) : ∃ _ : r.Answer, True := by
    obtain ⟨a⟩ := r.nonempty_answer
    exact ⟨a, trivial⟩
  obtain ⟨h, a, hy, _⟩ := exists_yields_within hanswer p (g := []) trivial
  exact ⟨h, a, hy⟩

theorem Reaches.exists_yields {p q : Program α} {h : List Exchange} (hq : Reaches p h q) :
    ∃ h' a, p.Yields (h ++ h') a := by
  obtain ⟨h', a, ha⟩ := q.exists_yields
  exact ⟨h', a, hq.append ha⟩

theorem reaches_watch {s : Signal} {r : Request} {next : r.Answer → Program α}
    {stop q : Program α} {a : r.Answer} {h : List Exchange} (hq : (next a).Reaches h q) :
    (watch s r next stop).Reaches (.answered r a :: h) q := .step (.watch a) hq

theorem yields_done_iff {a b : α} {h : List Exchange} :
    (done a).Yields h b ↔ h = [] ∧ b = a := by
  constructor
  · rintro (_ | ⟨⟨⟩, _⟩)
    exact ⟨rfl, rfl⟩
  · rintro ⟨rfl, rfl⟩
    exact .refl _

theorem yields_ask_iff {r : Request} {next : r.Answer → Program α} {h : List Exchange} {b : α} :
    (ask r next).Yields h b ↔ ∃ a h', h = .answered r a :: h' ∧ (next a).Yields h' b := by
  constructor
  · rintro (_ | ⟨⟨a⟩, hrest⟩)
    exact ⟨a, _, rfl, hrest⟩
  · rintro ⟨a, h', rfl, hrest⟩
    exact .step (.ask a) hrest

theorem yields_watch_iff {s : Signal} {r : Request} {next : r.Answer → Program α}
    {stop : Program α} {h : List Exchange} {b : α} :
    (watch s r next stop).Yields h b ↔
      (∃ a h', h = .answered r a :: h' ∧ (next a).Yields h' b) ∨
        ∃ n h', s = some n ∧ h = .stopped n r :: h' ∧ stop.Yields h' b := by
  constructor
  · rintro (_ | ⟨_ | a | _, hrest⟩)
    · exact .inl ⟨a, _, rfl, hrest⟩
    · exact .inr ⟨_, _, rfl, rfl, hrest⟩
  · rintro (⟨a, h', rfl, hrest⟩ | ⟨n, h', rfl, rfl, hrest⟩)
    · exact .step (.watch a) hrest
    · exact .step .stop hrest

end Program

end PacketRelay
