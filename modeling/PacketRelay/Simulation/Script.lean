import PacketRelay.Program.Basic

/-!
# Scripted nodes

A scripted node answers calls from a list of rules.  The first rule whose pattern fits a call gives
its answers one after another, the last one again and again.
-/

namespace PacketRelay.Simulation

inductive Method where
  | abciQuery
  | latestBlock
  | blockTime
  | lightBlock
  | broadcast
  | tx
  | txSearch
  deriving DecidableEq, Repr

namespace Method

def name : Method → String
  | .abciQuery => "abci_query"
  | .latestBlock => "latest_block"
  | .blockTime => "block_time"
  | .lightBlock => "light_block"
  | .broadcast => "broadcast_tx_sync"
  | .tx => "tx"
  | .txSearch => "tx_search"

def ofName? (s : String) : Option Method :=
  [abciQuery, latestBlock, blockTime, lightBlock, broadcast, tx, txSearch].find? (·.name = s)

end Method

def methodOf : NodeCall → Method
  | .abciQuery .. => .abciQuery
  | .latestBlock => .latestBlock
  | .blockTime _ => .blockTime
  | .lightBlock _ => .lightBlock
  | .broadcast _ => .broadcast
  | .tx _ => .tx
  | .txSearch _ => .txSearch

/-- What a call must be like: its kind, and those of its parts that are given. -/
structure Pattern where
  method : Method
  path : Option String
  data : Option Bytes
  height : Option UInt64
  hash : Option String
  query : Option String
  prove : Option Bool

namespace Pattern

/-- Whether an expected part, if given, equals the part of a call, which may not have it. -/
def agrees {α : Type} [DecidableEq α] (expected actual : Option α) : Bool :=
  expected.isNone || expected == actual

/-- Compares a pattern with the parts of a call. -/
def fitsParts (p : Pattern) (path : Option String) (data : Option Bytes) (height : Option UInt64)
    (hash query : Option String) (prove : Option Bool) : Bool :=
  agrees p.path path && agrees p.data data && agrees p.height height && agrees p.hash hash
    && agrees p.query query && agrees p.prove prove

def fits (p : Pattern) (c : NodeCall) : Bool :=
  p.method = methodOf c && match c with
    | .abciQuery path data height prove =>
      p.fitsParts (some path) (some data) (some height) none none (some prove)
    | .latestBlock => p.fitsParts none none none none none none
    | .blockTime height => p.fitsParts none none (some height) none none none
    | .lightBlock height => p.fitsParts none none (some height) none none none
    | .broadcast _ => p.fitsParts none none none none none none
    | .tx hash => p.fitsParts none none none (some hash) none none
    | .txSearch query => p.fitsParts none none none none (some query) none

end Pattern

/-- An answer, given after a delay. -/
structure Reply where
  delay : Nat
  answer : (c : NodeCall) → c.Answer

structure Rule where
  pattern : Pattern
  replies : Array Reply
  used : Nat

abbrev Node := List Rule

/-- A call that could not be made. -/
def refusal (e : RelayError) : (c : NodeCall) → c.Answer
  | .abciQuery .. => .error e
  | .latestBlock => .error e
  | .blockTime _ => .error e
  | .lightBlock _ => .error e
  | .broadcast _ => .error ⟨e, none⟩
  | .tx _ => .error e
  | .txSearch _ => .error e

/-- The answer to calls that no rule fits. -/
def unscripted : Reply := ⟨0, refusal (.rpc "no scripted answer")⟩

/-- The reply of a rule for its next use. -/
def Rule.reply (r : Rule) : Reply := r.replies.getD (min r.used (r.replies.size - 1)) unscripted

/-- The reply of a node to a call, and the node after it. -/
def Node.reply (c : NodeCall) : Node → Reply × Node
  | [] => (unscripted, [])
  | r :: rest =>
    if r.pattern.fits c then (r.reply, { r with used := r.used + 1 } :: rest)
    else
      let (reply, rest) := Node.reply c rest
      (reply, r :: rest)

end PacketRelay.Simulation
