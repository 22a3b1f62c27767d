import PacketRelay.Config.Basic
import PacketRelay.Toml.Document

/-!
# Reading configuration

A configuration is read from a table.  Unknown keys are ignored; the bounds of a chain's gas and the
section on metrics may be left out.
-/

namespace PacketRelay

open Toml (Value Table)

/-- How values are taken as settings. -/
structure Reading where
  text : Value → Option String
  /-- A number below a bound, which is a power of two. -/
  number : (bound : Nat) → Value → Option Nat
  float : Value → Option Float
  bool : Value → Option Bool
  signMode : Value → Option SignMode

namespace Reading

/-- Values are taken only as what they are written as, but integers also as floating-point
numbers. -/
def strict : Reading where
  text
    | .text s => some s
    | _ => none
  number bound
    | .integer n => if 0 ≤ n ∧ n < bound then some n.toNat else none
    | _ => none
  float
    | .float x => some x
    | .integer n => some (Decimal.Binary64.ofRatio (n < 0) n.natAbs 1)
    | _ => none
  bool
    | .bool b => some b
    | _ => none
  signMode
    | .text s => SignMode.ofName? s
    | .table [(name, .table [])] => SignMode.ofName? name
    | .table [(name, .array [])] => SignMode.ofName? name
    | _ => none

/-- The fields of a record, given by their names or, in an array, in their order. -/
def fields (names : List String) : Value → Option Table
  | .table t => some t
  | .array items => some (names.zip items)
  | _ => none

/-- A setting that must be given. -/
def required {α : Type} (read : Value → Option α) (t : Table) (key : String) : Option α :=
  t.lookup key >>= read

/-- A setting with a value for when it is not given. -/
def optional {α : Type} (read : Value → Option α) (absent : α) (t : Table) (key : String) :
    Option α :=
  match t.lookup key with
  | none => some absent
  | some v => read v

def word (r : Reading) (v : Value) : Option UInt64 := (r.number (1 <<< 64) v).map UInt64.ofNat

def globalNames : List String :=
  ["log_level", "max_retries", "retry_delay_ms", "broadcast_timeout", "poll_interval_ms"]

def global (r : Reading) (v : Value) : Option GlobalConfig := do
  let t ← fields globalNames v
  let retries ← required (r.number (1 <<< 32)) t "max_retries"
  return {
    logLevel := ← required r.text t "log_level"
    maxRetries := UInt32.ofNat retries
    retryDelay := ← required r.word t "retry_delay_ms"
    broadcastTimeout := ← required r.text t "broadcast_timeout"
    pollInterval := ← required r.word t "poll_interval_ms" }

def chainNames : List String :=
  ["chain_id", "rpc_endpoint", "key_name", "account_prefix", "gas_adjustment", "gas_prices",
    "min_gas_amount", "max_gas_amount", "sign_mode"]

def chain (r : Reading) (v : Value) : Option ChainConfig := do
  let t ← fields chainNames v
  return {
    chainId := ← required r.text t "chain_id"
    rpcEndpoint := ← required r.text t "rpc_endpoint"
    keyName := ← required r.text t "key_name"
    accountPrefix := ← required r.text t "account_prefix"
    gasAdjustment := ← required r.float t "gas_adjustment"
    gasPrices := ← required r.text t "gas_prices"
    minGas := ← optional r.word 0 t "min_gas_amount"
    maxGas := ← optional r.word 0 t "max_gas_amount"
    signMode := ← required r.signMode t "sign_mode" }

def metricsNames : List String := ["enabled", "host", "port"]

def metrics (r : Reading) (v : Value) : Option MetricsConfig := do
  let t ← fields metricsNames v
  let port ← required (r.number (1 <<< 16)) t "port"
  return {
    enabled := ← required r.bool t "enabled"
    host := ← required r.text t "host"
    port := UInt16.ofNat port }

def chains (r : Reading) : Value → Option (List (String × ChainConfig))
  | .table t => t.mapM fun (name, v) => do return (name, ← r.chain v)
  | _ => none

def config (r : Reading) (t : Table) : Option RelayerConfig := do
  return {
    global := ← required r.global t "global"
    chains := ← required r.chains t "chains"
    metrics := ← optional r.metrics .standard t "metrics" }

end Reading

namespace RelayerConfig

/-- Checks a configuration that has been read; `fault` tells why none has. -/
def checked (fault : ConfigFault) : Option RelayerConfig → Except ConfigFault RelayerConfig
  | none => .error fault
  | some c => do
    c.validate
    return c

/-- The configuration in a file with this content, if there is a file. -/
def load : (content : Option String) → Except ConfigFault RelayerConfig
  | none => .error .missing
  | some content => checked .malformed (Toml.parse? content >>= Reading.strict.config)

end RelayerConfig

end PacketRelay
