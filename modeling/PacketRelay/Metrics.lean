import PacketRelay.Provider

/-!
# Metrics

The counters and gauges that providers export, and the families in which they are gathered.
-/

namespace PacketRelay

/-- What is counted and exported about a provider. -/
inductive Metric where
  | broadcast (accepted : Bool)
  | confirmation (outcome : String)
  | rpcError
  deriving DecidableEq, Repr

/-- The fees of a provider by denomination, in the order of denominations.  They are added up
exactly, as in 128 bits while no sum is longer than that. -/
abbrev FeeTotals := List (String × Nat)

namespace FeeTotals

def add (denom : String) (amount : Nat) : FeeTotals → FeeTotals
  | [] => [(denom, amount)]
  | (d, n) :: rest =>
    if d = denom then (d, n + amount) :: rest
    else if denom < d then (denom, amount) :: (d, n) :: rest
    else (d, n) :: add denom amount rest

/-- The amount of a coin, unless it is no number of 128 bits. -/
def amountOf (c : Coin) : Option Nat := (Decimal.read (1 <<< 128) c.amount.toList).toOption

/-- Adds the fees whose amounts can be read. -/
def addAll (totals : FeeTotals) (fees : List Coin) : FeeTotals :=
  fees.foldl (fun totals c =>
    match amountOf c with
    | some n => totals.add c.denom n
    | none => totals) totals

end FeeTotals

/-- The labels of a sample, in the order of their names. -/
abbrev Labels := List (String × String)

/-- The metrics that a group of providers shares. -/
structure Registry where
  fees : List (Labels × Float)
  broadcasts : List (Labels × Nat)
  confirmations : List (Labels × Nat)
  rpcErrors : List (Labels × Nat)

namespace Registry

def empty : Registry := ⟨[], [], [], []⟩

/-- Changes the sample with these labels, which starts from `start`; samples stay sorted by the
values of their labels. -/
def update {α : Type} (labels : Labels) (start : α) (f : α → α) :
    List (Labels × α) → List (Labels × α)
  | [] => [(labels, f start)]
  | (l, a) :: rest =>
    if l = labels then (l, f a) :: rest
    else if labels.map (·.2) < l.map (·.2) then (labels, f start) :: (l, a) :: rest
    else (l, a) :: update labels start f rest

/-- Counts an event of a provider on a chain. -/
def count (r : Registry) (chainId : String) : Metric → Registry
  | .broadcast accepted =>
    let outcome := if accepted then "accepted" else "rejected"
    let labels := [("chain_id", chainId), ("outcome", outcome)]
    { r with broadcasts := update labels 0 (· + 1) r.broadcasts }
  | .confirmation outcome =>
    let labels := [("chain_id", chainId), ("outcome", outcome)]
    { r with confirmations := update labels 0 (· + 1) r.confirmations }
  | .rpcError => { r with rpcErrors := update [("chain_id", chainId)] 0 (· + 1) r.rpcErrors }

def setFees (r : Registry) (key : KeyId) (totals : FeeTotals) : Registry :=
  { r with
    fees := totals.foldl (fun fees (denom, amount) =>
      update [("chain_id", key.chainId), ("denom", denom), ("key", key.keyName)] 0
        (fun _ => Decimal.Binary64.ofNat amount) fees) r.fees }

inductive Sample where
  | gauge (x : Float)
  | counter (n : Nat)

/-- A family of samples with its name and description. -/
structure Family where
  name : String
  help : String
  samples : List (Labels × Sample)

/-- The families that have samples, in the order of their names. -/
def gather (r : Registry) : List Family :=
  let counters := List.map fun ((l, n) : Labels × Nat) => (l, Sample.counter n)
  [⟨"ibc_fees_spent", "Total fees spent by a relayer key", r.fees.map fun (l, x) => (l, .gauge x)⟩,
    ⟨"ibc_rpc_errors_total", "Total RPC errors", counters r.rpcErrors⟩,
    ⟨"ibc_tx_broadcasts_total", "Transactions submitted to the mempool", counters r.broadcasts⟩,
    ⟨"ibc_tx_confirmations_total", "Outcomes of waiting for block inclusion",
      counters r.confirmations⟩].filter fun family => !family.samples.isEmpty

end Registry

end PacketRelay
