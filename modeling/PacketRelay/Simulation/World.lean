import PacketRelay.Key.Basic
import PacketRelay.Simulation.Script
import PacketRelay.Submission

/-!
# A simulated world

Scripted nodes, signing keys, locks, metrics and a clock, and how each request of a program is
answered: at once, at a later time, when a lock is free, or when a job is done.
-/

namespace PacketRelay.Simulation

/-- What belongs to a provider in the world. -/
structure Station where
  provider : Provider
  /-- The number of the provider's node. -/
  node : Nat
  /-- The name of the registry to which it exports metrics. -/
  registry : Option String
  key : PrivateKey
  /-- What goes wrong at the next requests for the address. -/
  addressFaults : List (Option String)
  /-- What goes wrong at the next requests for a signature. -/
  signFaults : List (Option String)
  totals : FeeTotals

/-- The lock on a key: who holds it, and who waits for it in order. -/
structure KeyLock where
  key : KeyId
  state : SequenceState
  holder : Option Nat
  queue : List Nat

/-- A call on its way, with the answer it will get. -/
structure Flight where
  call : NodeCall
  answer : call.Answer
  due : Nat

/-- A call that was made, with the number of the node. -/
structure CallRecord where
  node : Nat
  call : NodeCall
  time : Nat

/-- What a strand waits for, and what it then gets. -/
inductive Suspension (α : Type) where
  /-- Timers due at the same time go off in their order. -/
  | timer (due order : Nat) (result : α)
  | lock (key : KeyId) (result : SequenceState → α)
  | job (strand : Nat) (result : Confirmation → α)
  | report (caller : Nat) (result : List (Except RelayError TxResponse) → α)

def Suspension.map {α β : Type} (f : α → β) : Suspension α → Suspension β
  | .timer due order result => .timer due order (f result)
  | .lock key result => .lock key fun s => f (result s)
  | .job strand result => .job strand fun c => f (result c)
  | .report caller result => .report caller fun rs => f (result rs)

/-- Where a program stands; the continuations are taken up when the strand runs again. -/
inductive Status (ρ : Type) where
  | waiting (on : Suspension (Unit → Program ρ)) (interrupt : Option (Signal × Program ρ))
  | finished (result : ρ)

/-- What a strand yields: the result of a step, or what a job yields. -/
inductive Outcome (ρ : Type) where
  | step (result : ρ)
  | job (confirmation : Option Confirmation)

/-- A program that runs in the world. -/
structure Strand (ρ : Type) where
  /-- Whether it is a job that runs on its own. -/
  background : Bool
  status : Status (Outcome ρ)

structure World (ρ : Type) where
  clock : Nat
  nodes : Array Node
  stations : Array Station
  locks : List KeyLock
  registries : List (String × Registry)
  signals : Array Bool
  flights : Array Flight
  strands : Array (Strand ρ)
  /-- The jobs to be run next, in order. -/
  ready : List Nat
  /-- Whether the steps are to be run again. -/
  woken : Bool
  timers : Nat
  /-- The jobs kept under names. -/
  kept : List (String × Nat)
  /-- The calls made, the last one first. -/
  calls : List CallRecord
  /-- The beginnings of attempts, the last one first. -/
  attempts : List Nat
  /-- The failed attempts that were followed by another one, the last one first. -/
  retries : List (Nat × RelayError)
  callers : Nat
  reports : List (Nat × Except RelayError TxResponse)

namespace World

variable {ρ : Type}

def empty : World ρ where
  clock := 0
  nodes := #[]
  stations := #[]
  locks := []
  registries := []
  signals := #[]
  flights := #[]
  strands := #[]
  ready := []
  woken := false
  timers := 0
  kept := []
  calls := []
  attempts := []
  retries := []
  callers := 0
  reports := []

/-- The calls made, each with the number of times that it was made in a row. -/
def callRuns (w : World ρ) : List (CallRecord × Nat) :=
  let runs := w.calls.reverse.splitBy fun a b => a.node == b.node && a.call == b.call
  runs.filterMap fun run => run.head?.map (·, run.length)

def fired (w : World ρ) : Signal → Bool
  | none => false
  | some id => w.signals.getD id false

def wake (w : World ρ) (strand : Nat) : World ρ :=
  match w.strands[strand]? with
  | none => w
  | some s =>
    if s.background then
      if w.ready.contains strand then w else { w with ready := w.ready ++ [strand] }
    else { w with woken := true }

def timer {α : Type} (w : World ρ) (due : Nat) (result : α) : World ρ × Suspension α :=
  ({ w with timers := w.timers + 1 }, .timer due w.timers result)

def lockOf (w : World ρ) (key : KeyId) : KeyLock :=
  (w.locks.find? (·.key = key)).getD ⟨key, .initial, none, []⟩

def setLock (w : World ρ) (l : KeyLock) : World ρ :=
  { w with locks := l :: w.locks.filter (·.key ≠ l.key) }

/-- Hands a lock to the strand that has waited longest. -/
def passOn (w : World ρ) (l : KeyLock) : World ρ :=
  match l.queue with
  | [] => w.setLock { l with holder := none }
  | strand :: rest => (w.setLock { l with holder := some strand, queue := rest }).wake strand

/-- Takes a strand out of the queue for a lock, and passes the lock on if the strand holds it. -/
def abandon (w : World ρ) (strand : Nat) (key : KeyId) : World ρ :=
  let l := w.lockOf key
  if l.holder = some strand then w.passOn l
  else w.setLock { l with queue := l.queue.filter (· ≠ strand) }

/-- Lets the node of a provider answer a call. -/
def callNode (w : World ρ) (p : Provider) (c : NodeCall) : World ρ × c.Answer × Nat :=
  let node := match w.stations[p.id]? with
    | some station => station.node
    | none => 0
  let (reply, after) := Node.reply c (w.nodes.getD node [])
  ({ w with
      nodes := w.nodes.setIfInBounds node after
      calls := ⟨node, c, w.clock⟩ :: w.calls },
    reply.answer c, reply.delay)

def setStation (w : World ρ) (p : Provider) (s : Station) : World ρ :=
  { w with stations := w.stations.setIfInBounds p.id s }

/-- The registry of a name, which is empty at first. -/
def registryOf (w : World ρ) (name : String) : Registry := (w.registries.lookup name).getD .empty

/-- Changes the registry to which a provider exports metrics, if there is one. -/
def exportTo (w : World ρ) (p : Provider) (f : Registry → Registry) : World ρ :=
  match w.stations[p.id]?.bind (·.registry) with
  | none => w
  | some name =>
    { w with registries := (name, f (w.registryOf name)) :: w.registries.filter (·.1 ≠ name) }

/-- Adds fees to the totals of a provider that exports metrics. -/
def spend (w : World ρ) (p : Provider) (fees : List Coin) : World ρ :=
  match w.stations[p.id]? with
  | none => w
  | some station =>
    if station.registry.isNone then w
    else
      let totals := station.totals.addAll fees
      (w.setStation p { station with totals }).exportTo p (·.setFees p.key totals)

def totals (w : World ρ) (p : Provider) : FeeTotals :=
  match w.stations[p.id]? with
  | some station => station.totals
  | none => []

/-- The address of a provider's key, unless something goes wrong. -/
def address (w : World ρ) (p : Provider) : World ρ × Except RelayError String :=
  match w.stations[p.id]? with
  | none => (w, .error (.keyResolution "no key"))
  | some station =>
    let w := w.setStation p { station with addressFaults := station.addressFaults.tail }
    match station.addressFaults.head?.join with
    | some cause => (w, .error (.keyResolution cause))
    | none => (w, PrivateKey.addressOf p.publicKey p.config.accountPrefix)

/-- The signature of a provider's key, unless something goes wrong. -/
def sign (w : World ρ) (p : Provider) (document : Bytes) : World ρ × Except RelayError Bytes :=
  match w.stations[p.id]? with
  | none => (w, .error (.signing "no key"))
  | some station =>
    let w := w.setStation p { station with signFaults := station.signFaults.tail }
    match station.signFaults.head?.join with
    | some cause => (w, .error (.signing cause))
    | none => (w, .ok (station.key.sign document))

def statusOf (w : World ρ) (strand : Nat) : Option (Status (Outcome ρ)) :=
  (w.strands[strand]?).map Strand.status

/-- The confirmation that a job found. -/
def confirmation? (w : World ρ) (strand : Nat) : Option Confirmation :=
  match w.statusOf strand with
  | some (.finished (.job c)) => c
  | _ => none

def reportsTo (w : World ρ) (caller : Nat) : List (Except RelayError TxResponse) :=
  (w.reports.filter (·.1 = caller)).map (·.2)

/-- Adds a job, to be run after the others. -/
def addJob (w : World ρ) (program : Program (Option Confirmation)) : World ρ × Nat :=
  let id := w.strands.size
  let next : Unit → Program (Outcome ρ) := fun _ => Outcome.job <$> program
  let (w, on) := w.timer w.clock next
  ({ w with strands := w.strands.push ⟨true, .waiting on none⟩, ready := w.ready ++ [id] }, id)

/-- The strands that wait for something that has happened. -/
def waiting (w : World ρ) (happened : Suspension (Unit → Program (Outcome ρ)) → Bool) : List Nat :=
  (List.range w.strands.size).filter fun id =>
    match w.statusOf id with
    | some (.waiting on _) => happened on
    | _ => false

/-- Wakes the strands that wait for something that has happened. -/
def wakeAll (w : World ρ) (happened : Suspension (Unit → Program (Outcome ρ)) → Bool) : World ρ :=
  (w.waiting happened).foldl wake w

/-- The strands that a signal watches. -/
def watchedBy (w : World ρ) (signal : Nat) : List Nat :=
  (List.range w.strands.size).filter fun id =>
    match w.statusOf id with
    | some (.waiting _ (some (s, _))) => s = some signal
    | _ => false

/-- Fires a signal and wakes the strands that it watches. -/
def fire (w : World ρ) : Signal → World ρ
  | none => w
  | some id =>
    (w.watchedBy id).foldl wake { w with signals := w.signals.setIfInBounds id true }

/-- A new signal.  A job fires it after a time, unless it is fired from the beginning. -/
def addSignal (w : World ρ) (millis : Nat) : World ρ × Signal :=
  let signal : Signal := some w.signals.size
  let w := { w with signals := w.signals.push (millis = 0) }
  if millis = 0 then (w, signal)
  else
    let (w, _) := w.addJob do
      Program.request (.pause millis)
      Program.request (.fire signal)
      return none
    (w, signal)

/-- The answer of a call on its way and the time at which it arrives. -/
def landing (w : World ρ) (c : NodeCall) (ticket : Nat) : Option (c.Answer × Nat) :=
  match w.flights[ticket]? with
  | none => none
  | some flight => if h : flight.call = c then some (h ▸ flight.answer, flight.due) else none

/-- Something that is there at a time. -/
def atTime {α : Type} (w : World ρ) (due : Nat) (a : α) : World ρ × (α ⊕ Suspension α) :=
  if due ≤ w.clock then (w, .inl a)
  else
    let (w, on) := w.timer due a
    (w, .inr on)

/-- Answers the request of a strand, at once or later. -/
def answer (w : World ρ) (self : Nat) : (r : Request) → World ρ × (r.Answer ⊕ Suspension r.Answer)
  | .rest => (w, .inl ())
  | .now => (w, .inl w.clock)
  | .pause millis =>
    if millis = 0 then (w, .inl ())
    else
      let (w, on) := w.timer (w.clock + millis) ()
      (w, .inr on)
  | .signal millis =>
    let (w, signal) := w.addSignal millis
    (w, .inl signal)
  | .fire signal => (w.fire signal, .inl ())
  | .call p c =>
    let (w, a, delay) := w.callNode p c
    if delay = 0 then (w, .inl a)
    else
      let (w, on) := w.timer (w.clock + delay) a
      (w, .inr on)
  | .start p c =>
    let (w, a, delay) := w.callNode p c
    if delay = 0 then (w, .inl (.inl a))
    else ({ w with flights := w.flights.push ⟨c, a, w.clock + delay⟩ }, .inl (.inr w.flights.size))
  | .await c ticket =>
    match w.landing c ticket with
    | none => (w, .inl (refusal (.rpc "no such call") c))
    | some (a, due) => w.atTime due a
  | .awaitEither c₁ ticket₁ c₂ ticket₂ =>
    match w.landing c₁ ticket₁, w.landing c₂ ticket₂ with
    | some (a₁, due₁), some (a₂, due₂) =>
      if due₁ ≤ due₂ then w.atTime due₁ (.inl a₁) else w.atTime due₂ (.inr a₂)
    | _, _ => (w, .inl (.inl (refusal (.rpc "no such call") c₁)))
  | .address p =>
    let (w, r) := w.address p
    (w, .inl r)
  | .sign p document =>
    let (w, r) := w.sign p document
    (w, .inl r)
  | .acquire p =>
    let l := w.lockOf p.key
    if l.holder.isNone then (w.setLock { l with holder := some self }, .inl l.state)
    else (w.setLock { l with queue := l.queue ++ [self] }, .inr (.lock p.key id))
  | .release p state => (w.passOn { w.lockOf p.key with state }, .inl ())
  | .record p m => (w.exportTo p (·.count p.chainId m), .inl ())
  | .spend p fees => (w.spend p fees, .inl ())
  | .totals p => (w, .inl (w.totals p))
  | .registry name => (w, .inl (w.registryOf name))
  | .spawn p j =>
    let (w, id) := w.addJob (p.runJob j)
    (w, .inl id)
  | .join job =>
    match w.confirmation? job with
    | some c => (w, .inl c)
    | none => (w, .inr (.job job id))
  | .keep name job => ({ w with kept := (name, job) :: w.kept.filter (·.1 ≠ name) }, .inl ())
  | .take name => ({ w with kept := w.kept.filter (·.1 ≠ name) }, .inl (w.kept.lookup name))
  | .attempting _ => ({ w with attempts := w.clock :: w.attempts }, .inl ())
  | .retrying attempt e => ({ w with retries := (attempt, e) :: w.retries }, .inl ())
  | .enroll => ({ w with callers := w.callers + 1 }, .inl w.callers)
  | .notify caller result =>
    let w := { w with reports := w.reports ++ [(caller, result)] }
    (w.wakeAll fun on => match on with
      | .report c _ => c = caller
      | _ => false, .inl ())
  | .listen caller =>
    match w.reportsTo caller with
    | [] => (w, .inr (.report caller id))
    | results => (w, .inl results)

end World

end PacketRelay.Simulation
