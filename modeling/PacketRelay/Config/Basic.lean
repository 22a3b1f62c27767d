import PacketRelay.Duration.Reader
import PacketRelay.Provider
import PacketRelay.Text.Quoted

/-!
# Configuration

The settings of a relayer: those that hold for all chains, those of each chain, and the export of
metrics.
-/

namespace PacketRelay

structure GlobalConfig where
  logLevel : String
  /-- Attempts of a retried step. -/
  maxRetries : UInt32
  /-- The pause between two attempts in milliseconds. -/
  retryDelay : UInt64
  /-- How long to wait for a transaction to be included in a block, as written. -/
  broadcastTimeout : String
  /-- The pause between two look-ups of a transaction in milliseconds. -/
  pollInterval : UInt64
  deriving DecidableEq, Repr, Inhabited

structure ChainConfig where
  chainId : String
  rpcEndpoint : String
  keyName : String
  accountPrefix : String
  gasAdjustment : Float
  gasPrices : String
  /-- The least gas of a transaction, zero for none. -/
  minGas : UInt64
  /-- The most gas of a transaction, zero for none. -/
  maxGas : UInt64
  signMode : SignMode
  deriving Repr

structure MetricsConfig where
  enabled : Bool
  host : String
  port : UInt16
  deriving DecidableEq, Repr, Inhabited

structure RelayerConfig where
  global : GlobalConfig
  chains : List (String × ChainConfig)
  metrics : MetricsConfig
  deriving Repr

/-- Why a configuration cannot be used. -/
inductive ConfigFault where
  | missing
  /-- The file is no document of the expected form. -/
  | malformed
  /-- The file and the environment together do not have the expected form. -/
  | unsuitable
  /-- The time-out, written like this, is no duration. -/
  | badTimeout (text : String)
  | badAdjustment (chain : String)
  | gasBounds (chain : String)
  deriving DecidableEq, Repr

def ConfigFault.message : ConfigFault → String
  | .missing => "configuration file not found"
  | .malformed => "malformed configuration file"
  | .unsuitable => "unsuitable configuration"
  | .badTimeout text => "invalid broadcast_timeout " ++ Text.quoted text
  | .badAdjustment chain => "chain " ++ chain ++ ": gas_adjustment must be a positive number"
  | .gasBounds chain => "chain " ++ chain ++ ": min_gas_amount exceeds max_gas_amount"

namespace GlobalConfig

def standard : GlobalConfig := ⟨"info", 5, 400, "10m", 100⟩

def retryPolicy (g : GlobalConfig) : RetryPolicy :=
  ⟨g.maxRetries.toNat, .ofMillis g.retryDelay.toNat, true⟩

def timeout (g : GlobalConfig) : Except ConfigFault Duration :=
  match Duration.parse? g.broadcastTimeout with
  | some d => .ok d
  | none => .error (.badTimeout g.broadcastTimeout)

def interval (g : GlobalConfig) : Duration := .ofMillis g.pollInterval.toNat

end GlobalConfig

def MetricsConfig.standard : MetricsConfig := ⟨false, "127.0.0.1", 3001⟩

namespace ChainConfig

def validate (c : ChainConfig) (name : String) : Except ConfigFault Unit :=
  if c.gasAdjustment ≤ 0 || !c.gasAdjustment.isFinite then .error (.badAdjustment name)
  else if 0 < c.maxGas && c.maxGas < c.minGas then .error (.gasBounds name)
  else .ok ()

/-- The settings of a provider for the chain. -/
def providerConfig (c : ChainConfig) (g : GlobalConfig) : Except RelayError ProviderConfig := do
  let timeout ← g.timeout.mapError fun fault => .config fault.message
  let gasPrice ← GasPrice.parse c.gasPrices
  return {
    chainId := c.chainId
    keyName := c.keyName
    accountPrefix := c.accountPrefix
    gasAdjustment := c.gasAdjustment
    gasPrice := gasPrice
    minGas := c.minGas
    maxGas := c.maxGas
    signMode := c.signMode
    broadcastTimeout := timeout
    pollInterval := g.interval
    retry := g.retryPolicy }

end ChainConfig

namespace RelayerConfig

/-- The settings for a test network. -/
def standard : RelayerConfig where
  global := .standard
  chains := [("cosmoshub-testnet", {
    chainId := "theta-testnet-001"
    rpcEndpoint := "https://rpc.sentry-01.theta-testnet.polypore.xyz"
    keyName := "relayer"
    accountPrefix := "cosmos"
    gasAdjustment := 1.3
    gasPrices := "0.025uatom"
    minGas := 0
    maxGas := 0
    signMode := .direct })]
  metrics := .standard

def chain? (c : RelayerConfig) (name : String) : Option ChainConfig := c.chains.lookup name

def withTimeout (c : RelayerConfig) (text : String) : RelayerConfig :=
  { c with global := { c.global with broadcastTimeout := text } }

/-- Checks the time-out and then the chains. -/
def validate (c : RelayerConfig) : Except ConfigFault Unit := do
  let _ ← c.global.timeout
  c.chains.forM fun (name, chain) => chain.validate name

end RelayerConfig

end PacketRelay
