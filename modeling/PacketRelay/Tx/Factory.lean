import PacketRelay.Any
import PacketRelay.Program.Basic

/-!
# Transactions

The settings of a transaction, its body and authorization, and the document that is signed.
-/

namespace PacketRelay

open Schema (Message)
open Schema.Message (ofNumber ofText ofBytes ofMessage ofMessages)

structure TxFactory where
  chainId : String
  accountNumber : UInt64
  sequence : UInt64
  gas : UInt64
  gasAdjustment : Float
  gasPrice : GasPrice
  memo : String
  signMode : SignMode
  deriving Repr

structure Fee where
  amount : List Coin
  gasLimit : UInt64
  deriving Repr

def Fee.toMessage (f : Fee) : Message :=
  ofMessages 1 (f.amount.map Coin.toMessage) ++ ofNumber 2 f.gasLimit

namespace TxFactory

def fee (f : TxFactory) : Fee := ⟨[f.gasPrice.fee f.gas], f.gas⟩

def body (f : TxFactory) (msgs : List Any) : Message :=
  ofMessages 1 (msgs.map Any.toMessage) ++ ofText 2 f.memo

/-- The name under which a public key of the curve secp256k1 travels. -/
def publicKeyAny (publicKey : Bytes) : Any := Any.pack .secp256k1Key (ofBytes 1 publicKey)

/-- The message of type `modeInfo` of a single signer. -/
def modeInfo (mode : SignMode) : Message := ofMessage 1 (ofNumber 1 mode.code)

def signerInfo (f : TxFactory) (publicKey : Bytes) : Message :=
  ofMessage 1 (publicKeyAny publicKey).toMessage ++ ofMessage 2 (modeInfo f.signMode)
    ++ ofNumber 3 f.sequence

def authInfo (f : TxFactory) (publicKey : Bytes) : Message :=
  ofMessages 1 [f.signerInfo publicKey] ++ ofMessage 2 f.fee.toMessage

end TxFactory

/-- A transaction ready to be signed. -/
structure UnsignedTx where
  body : Bytes
  authInfo : Bytes
  fee : Fee
  deriving Repr

namespace UnsignedTx

def signDoc (u : UnsignedTx) (f : TxFactory) : Message :=
  ofBytes 1 u.body ++ ofBytes 2 u.authInfo ++ ofText 3 f.chainId ++ ofNumber 4 f.accountNumber

/-- The message of type `txRaw` with one signature. -/
def withSignature (u : UnsignedTx) (signature : Bytes) : Message :=
  ofBytes 1 u.body ++ ofBytes 2 u.authInfo ++ [(3, .bytes signature)]

end UnsignedTx

/-- A signed transaction, encoded. -/
structure BuiltTx where
  bytes : Bytes
  /-- The sequence that it was signed with. -/
  sequence : UInt64
  fees : List Coin
  deriving Repr

namespace Provider

/-- A factory with the provider's settings. -/
def factory (p : Provider) : TxFactory where
  chainId := p.config.chainId
  accountNumber := 0
  sequence := 0
  gas := 0
  gasAdjustment := p.config.gasAdjustment
  gasPrice := p.config.gasPrice
  memo := ""
  signMode := p.config.signMode

def unsignedTx (p : Provider) (f : TxFactory) (msgs : List Any) : UnsignedTx where
  body := (f.body msgs).encode
  authInfo := (f.authInfo p.publicKey).encode
  fee := f.fee

/-- The transaction that is simulated: its signature is empty. -/
def simulationTx (p : Provider) (f : TxFactory) (msgs : List Any) : Bytes :=
  ((p.unsignedTx f msgs).withSignature []).encode

/-- Signs a transaction; only the direct mode can sign. -/
def signTx (p : Provider) (f : TxFactory) (u : UnsignedTx) : Attempt Message := do
  if f.signMode ≠ .direct then
    throw (.config ("sign mode " ++ f.signMode.label
      ++ " is not supported for signing, use \"direct\""))
  let signature ← Attempt.demand (Program.request (.sign p (u.signDoc f).encode))
  return u.withSignature signature

end Provider

end PacketRelay
