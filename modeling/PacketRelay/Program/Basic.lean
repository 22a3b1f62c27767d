import PacketRelay.Metrics
import PacketRelay.Node

/-!
# Programs

What the relayer does is a program: a tree of requests to its surroundings — nodes, the clock, the
signer, the locks on keys — each followed by what to do with the answer.  A request can be watched
by a cancellation signal; if the signal has fired, or fires before the answer arrives, the program
goes on in another way.
-/

namespace PacketRelay

/-- A cancellation signal; `none` never fires. -/
abbrev Signal := Option Nat

/-- What a program may leave to run on its own. -/
inductive Job where
  /-- Wait until a transaction is included in a block. -/
  | confirm (txHash : String) (signal : Signal)
  /-- Report an error, or the confirmation that another job waits for, to a caller. -/
  | report (caller : Nat) (outcome : Except RelayError Nat)

inductive Request where
  /-- Nothing; a watched one looks at the signal. -/
  | rest
  | now
  | pause (millis : Nat)
  /-- A new signal, which fires after a time. -/
  | signal (millis : Nat)
  | fire (s : Signal)
  /-- A call to the provider's node, waiting for its answer. -/
  | call (p : Provider) (c : NodeCall)
  /-- A call to the provider's node; an answer that is not there at once gets a ticket. -/
  | start (p : Provider) (c : NodeCall)
  /-- The answer for a ticket. -/
  | await (c : NodeCall) (ticket : Nat)
  /-- The answer for one of two tickets, whichever arrives first. -/
  | awaitEither (c₁ : NodeCall) (ticket₁ : Nat) (c₂ : NodeCall) (ticket₂ : Nat)
  | address (p : Provider)
  | sign (p : Provider) (document : Bytes)
  /-- The lock on the provider's key, with its sequence cache. -/
  | acquire (p : Provider)
  /-- Gives the lock back and leaves a new sequence cache. -/
  | release (p : Provider) (state : SequenceState)
  | record (p : Provider) (m : Metric)
  /-- Adds fees to the provider's totals. -/
  | spend (p : Provider) (fees : List Coin)
  | totals (p : Provider)
  /-- The metrics exported to the registry of a name. -/
  | registry (name : String)
  /-- Starts a job and names it. -/
  | spawn (p : Provider) (j : Job)
  /-- The outcome of a job that waits for a transaction. -/
  | join (job : Nat)
  /-- Keeps a job under a name, in place of the one that was there. -/
  | keep (name : String) (job : Nat)
  /-- The job kept under a name, which is kept no longer. -/
  | take (name : String)
  /-- Tells that an attempt begins. -/
  | attempting (attempt : Nat)
  /-- Tells that an attempt failed and another one follows. -/
  | retrying (attempt : Nat) (e : RelayError)
  /-- A new caller. -/
  | enroll
  /-- Hands a result to a caller. -/
  | notify (caller : Nat) (result : Except RelayError TxResponse)
  /-- The results handed to a caller, once there is one. -/
  | listen (caller : Nat)

abbrev Request.Answer : Request → Type
  | .now => Nat
  | .signal _ => Signal
  | .call _ c => c.Answer
  | .start _ c => c.Answer ⊕ Nat
  | .await c _ => c.Answer
  | .awaitEither c₁ _ c₂ _ => c₁.Answer ⊕ c₂.Answer
  | .address _ => Except RelayError String
  | .sign .. => Except RelayError Bytes
  | .acquire _ => SequenceState
  | .totals _ => FeeTotals
  | .registry _ => Registry
  | .spawn .. => Nat
  | .join _ => Confirmation
  | .take _ => Option Nat
  | .enroll => Nat
  | .listen _ => List (Except RelayError TxResponse)
  | _ => Unit

inductive Program (α : Type) where
  | done (a : α)
  | ask (r : Request) (next : r.Answer → Program α)
  /-- Goes on with `stop` if the signal has fired or fires before the answer arrives. -/
  | watch (s : Signal) (r : Request) (next : r.Answer → Program α) (stop : Program α)

namespace Program

def bind {α β : Type} (f : α → Program β) : Program α → Program β
  | .done a => f a
  | .ask r next => .ask r fun a => bind f (next a)
  | .watch s r next stop => .watch s r (fun a => bind f (next a)) (bind f stop)

instance : Monad Program where
  pure := .done
  bind p f := p.bind f

def request (r : Request) : Program r.Answer := .ask r .done

def fired (s : Signal) : Program Bool := .watch s .rest (fun _ => .done false) (.done true)

@[simp] theorem bind_done {α β : Type} (f : α → Program β) (a : α) : (done a).bind f = f a := rfl

theorem bind_assoc {α β γ : Type} (p : Program α) (f : α → Program β) (g : β → Program γ) :
    (p.bind f).bind g = p.bind fun a => (f a).bind g := by
  induction p with
  | done a => rfl
  | ask r next ih => simp only [bind, ih]
  | watch s r next stop ih ihs => simp only [bind, ih, ihs]

theorem bind_pure {α : Type} (p : Program α) : p.bind done = p := by
  induction p with
  | done a => rfl
  | ask r next ih => simp only [bind, ih]
  | watch s r next stop ih ihs => simp only [bind, ih, ihs]

instance : LawfulMonad Program := LawfulMonad.mk' Program bind_pure (fun _ _ => rfl) bind_assoc

end Program

/-- A program that may fail. -/
abbrev Attempt (α : Type) := ExceptT RelayError Program α

namespace Attempt

/-- A request as a step that does not fail. -/
def request (r : Request) : Attempt r.Answer := ExceptT.lift (Program.request r)

/-- A result that is known already. -/
def ofExcept {α : Type} (r : Except RelayError α) : Attempt α := ExceptT.mk (pure r)

/-- A request that the surroundings may refuse. -/
def demand {α : Type} (p : Program (Except RelayError α)) : Attempt α := ExceptT.mk p

/-- The outcome of a step, which itself does not fail. -/
def outcome {α : Type} (p : Attempt α) : Attempt (Except RelayError α) := ExceptT.lift p.run

/-- Watches every request of a program by a signal, beginning with a look at the signal itself. -/
def watchAll {α : Type} (s : Signal) (stop : Program α) : Program α → Program α
  | .done a => .done a
  | .ask r next => .watch s r (fun a => watchAll s stop (next a)) stop
  | .watch s' r next stop' => .watch s' r (fun a => watchAll s stop (next a)) stop'

/-- Runs a program until a signal fires; a fired signal wins over everything else. -/
def guard {α : Type} (s : Signal) (p : Attempt α) : Attempt α :=
  let stop : Program (Except RelayError α) := .done (.error .cancelled)
  Program.watch s .rest (fun _ => watchAll s stop p.run) stop

end Attempt

end PacketRelay
