import PacketRelay.Config.Basic
import PacketRelay.Toml.Writer

/-!
# Writing configuration

The tables of a configuration, separated by empty lines.  A number that exceeds 63 bits cannot be
written.
-/

namespace PacketRelay

open Toml (writeText writeInteger? writeFloat writeBool writeTable)

def GlobalConfig.write? (g : GlobalConfig) : Option String := do
  return writeTable ["global"] [
    ("log_level", writeText g.logLevel),
    ("max_retries", ← writeInteger? g.maxRetries.toNat),
    ("retry_delay_ms", ← writeInteger? g.retryDelay.toNat),
    ("broadcast_timeout", writeText g.broadcastTimeout),
    ("poll_interval_ms", ← writeInteger? g.pollInterval.toNat)]

def ChainConfig.write? (c : ChainConfig) (name : String) : Option String := do
  return writeTable ["chains", name] [
    ("chain_id", writeText c.chainId),
    ("rpc_endpoint", writeText c.rpcEndpoint),
    ("key_name", writeText c.keyName),
    ("account_prefix", writeText c.accountPrefix),
    ("gas_adjustment", writeFloat c.gasAdjustment),
    ("gas_prices", writeText c.gasPrices),
    ("min_gas_amount", ← writeInteger? c.minGas.toNat),
    ("max_gas_amount", ← writeInteger? c.maxGas.toNat),
    ("sign_mode", writeText c.signMode.name)]

def MetricsConfig.write? (m : MetricsConfig) : Option String := do
  return writeTable ["metrics"] [
    ("enabled", writeBool m.enabled),
    ("host", writeText m.host),
    ("port", ← writeInteger? m.port.toNat)]

/-- The tables of the chains, or an empty one if there are none. -/
def RelayerConfig.writeChains? (c : RelayerConfig) : Option (List String) :=
  if c.chains.isEmpty then some [writeTable ["chains"] []]
  else c.chains.mapM fun (name, chain) => chain.write? name

/-- The content of a file with the configuration. -/
def RelayerConfig.save? (c : RelayerConfig) : Option String := do
  return String.intercalate "\n" ([← c.global.write?] ++ (← c.writeChains?) ++ [← c.metrics.write?])

end PacketRelay
