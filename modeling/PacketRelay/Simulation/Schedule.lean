import PacketRelay.Simulation.World

/-!
# Running programs in a simulated world

The steps of a round run together, each one until it has to wait, in their order; then the jobs that
are ready, first come first served.  Only when nothing can run does the clock move, straight to the
next timer.
-/

namespace PacketRelay.Simulation.World

variable {ρ : Type}

/-- Runs a program until it has to wait or is finished. -/
def run (self : Nat) : Program (Outcome ρ) → World ρ → World ρ × Status (Outcome ρ)
  | .done result, w => (w, .finished result)
  | .ask r next, w =>
    match w.answer self r with
    | (w, .inl a) => run self (next a) w
    | (w, .inr on) => (w, .waiting (on.map fun a () => next a) none)
  | .watch s r next stop, w =>
    if w.fired s then run self stop w
    else match w.answer self r with
      | (w, .inl a) => run self (next a) w
      | (w, .inr on) => (w, .waiting (on.map fun a () => next a) (some (s, stop)))

/-- The continuation of a suspension, if what it waits for is there. -/
def resume? (w : World ρ) (self : Nat) :
    Suspension (Unit → Program (Outcome ρ)) → Option (Unit → Program (Outcome ρ))
  | .timer due _ result => if due ≤ w.clock then some result else none
  | .lock key result =>
    let l := w.lockOf key
    if l.holder = some self then some (result l.state) else none
  | .job strand result => (w.confirmation? strand).map result
  | .report caller result =>
    match w.reportsTo caller with
    | [] => none
    | results => some (result results)

def setStatus (w : World ρ) (self : Nat) (s : Strand ρ) (status : Status (Outcome ρ)) : World ρ :=
  { w with strands := w.strands.setIfInBounds self { s with status } }

def stopWaiting (w : World ρ) (self : Nat) : Suspension (Unit → Program (Outcome ρ)) → World ρ
  | .lock key _ => w.abandon self key
  | _ => w

/-- Wakes those who wait for a strand that is finished. -/
def afterRun (w : World ρ) (self : Nat) : Status (Outcome ρ) → World ρ
  | .finished _ => w.wakeAll fun on => match on with
    | .job strand _ => strand = self
    | _ => false
  | .waiting .. => w

def runStrand (w : World ρ) (self : Nat) (s : Strand ρ) (program : Program (Outcome ρ)) : World ρ :=
  let (w, status) := run self program w
  (w.setStatus self s status).afterRun self status

/-- How a strand goes on, if a signal has ended what it waits for. -/
def stopped? (w : World ρ) : Option (Signal × Program (Outcome ρ)) → Option (Program (Outcome ρ))
  | some (signal, stop) => if w.fired signal then some stop else none
  | none => none

/-- Runs a strand on, if it can run. -/
def poll (w : World ρ) (self : Nat) : World ρ :=
  match w.strands[self]? with
  | none => w
  | some s =>
    match s.status with
    | .finished _ => w
    | .waiting on interrupt =>
      match w.stopped? interrupt with
      | some stop => (w.stopWaiting self on).runStrand self s stop
      | none =>
        match w.resume? self on with
        | none => w
        | some next => w.runStrand self s (next ())

/-- The results of the steps with these numbers, if all are finished. -/
def results? (w : World ρ) (ids : List Nat) : Option (List ρ) :=
  ids.mapM fun id =>
    match w.statusOf id with
    | some (.finished (.step r)) => some r
    | _ => none

/-- The times for which something waits. -/
def dueTimes (w : World ρ) : List Nat :=
  w.strands.toList.flatMap fun s => match s.status with
    | .waiting (.timer due _ _) _ => [due]
    | _ => []

/-- The order of a strand's timer, if the timer is due. -/
def dueOrder? (w : World ρ) (id : Nat) : Option Nat :=
  match w.statusOf id with
  | some (.waiting (.timer due order _) _) => if due ≤ w.clock then some order else none
  | _ => none

/-- The strands whose timers are due, in the order of the timers. -/
def dueStrands (w : World ρ) : List Nat :=
  let due := (List.range w.strands.size).filterMap fun id => (w.dueOrder? id).map (·, id)
  (due.mergeSort fun a b => a.1 ≤ b.1).map Prod.snd

/-- Moves the clock to the next timer. -/
def advance (w : World ρ) : Option (World ρ) :=
  match (w.dueTimes.filter (w.clock < ·)).min? with
  | none => none
  | some time =>
    let w := { w with clock := time }
    some (w.dueStrands.foldl wake w)

/-- Runs until the steps with these numbers are finished.  The steps come first when the clock has
moved, then all jobs that are ready.  `fuel` bounds how often strands are run or the clock moves. -/
def drive (ids : List Nat) :
    (fuel : Nat) → (stepsFirst : Bool) → World ρ → World ρ × Option (List ρ)
  | 0, _, w => (w, none)
  | fuel + 1, true, w =>
    if w.woken then
      let w := ids.foldl poll { w with woken := false }
      match w.results? ids with
      | some results => (w, some results)
      | none => drive ids fuel false w
    else drive ids fuel false w
  | fuel + 1, false, w =>
    match w.ready with
    | job :: rest => drive ids fuel false (({ w with ready := rest } : World ρ).poll job)
    | [] =>
      if w.woken then drive ids fuel true w
      else match w.advance with
        | none => (w, none)
        | some w => drive ids fuel true w

/-- How often strands may be run in one round. -/
def roundLimit : Nat := 1000000000

/-- Runs programs together until all are finished.  There are no results if they wait for something
that never happens. -/
def runRound (w : World ρ) (programs : List (Program ρ)) : World ρ × Option (List ρ) :=
  let first := w.strands.size
  let start (w : World ρ) (program : Program ρ) : World ρ :=
    let next : Unit → Program (Outcome ρ) := fun _ => Outcome.step <$> program
    let (w, on) := w.timer w.clock next
    { w with strands := w.strands.push ⟨false, .waiting on none⟩ }
  let w := programs.foldl start w
  let ids := (List.range programs.length).map (first + ·)
  drive ids roundLimit true { w with woken := true }

end PacketRelay.Simulation.World
