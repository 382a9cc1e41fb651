import BonsaiChain.Bignum
import BonsaiChain.ContractSign

/-!
# Contract calls

The unlocking script of a contract input: the pushes of `scrypt/contract_call.c` and the three
method calls of `txbuilders/contract_sign.c`, each of which puts its script on the contract input,
signs the funding inputs and serializes.
-/

namespace BonsaiChain

open Lib

section Push

def contractCallPushBytes (data : Bytes) : Bytes :=
  if data.length = 0 then [0x00]
  else if data.length ≤ 75 then UInt8.ofNat data.length :: data
  else if data.length ≤ 0xff then [0x4c, UInt8.ofNat data.length] ++ data
  else if data.length ≤ 0xffff then 0x4d :: leBytes 2 data.length ++ data
  else 0x4e :: leBytes 4 data.length ++ data

def contractCallPushIntBn (value : ℤ) : Except Err Bytes := toScriptHex (.int value)

def contractCallPushIntI64 (value : Int64) : Except Err Bytes := do
  let bn ← bnParseDec (decimalInt value.toInt)
  contractCallPushIntBn bn

end Push

section Sign

variable (P : Prims)

/-- An outpoint of `contract_call_prevouts`. -/
def contractCallOutpoint (i : TxIn) : Except Err Bytes :=
  match hexDecodeFixed i.prevTxidDisplay 32 with
  | .error _ => .error .einval
  | .ok txidBe => .ok (txidBe.reverse ++ u32le i.vout)

def contractCallPrevouts (tx : Tx) : Except Err Bytes := do
  let outpoints ← tx.inputs.mapM contractCallOutpoint
  return outpoints.flatten

def contractCallSignPreimage (preimage : Bytes) (key : EcdsaKey) (sighashFlag : UInt8) :
    Except Err Bytes := do
  let der ← key.signLowS (sha256d P preimage)
  return der ++ [sighashFlag]

end Sign

section Methods

/-- What every method call has: the contract input, what it spends, the change and the method. -/
structure ContractSpend where
  contractInputIndex : ℕ
  contractScriptCode : Bytes
  identityValue : UInt64
  changeAmount : Int64
  changeHash160 : Block 20
  methodSelector : Int64

/-- `contract_execute_args_t`. -/
structure ContractExecuteArgs where
  agentKey : EcdsaKey
  counterpartyKey : EcdsaKey
  counterpartyPub33 : Block 33
  amount : ℤ
  hash32 : Block 32
  provenanceHash32 : Block 32
  attestedLimit : ℤ
  rabinS : ℤ
  rabinPadding : Bytes

/-- `contract_recover_sig_t`. -/
structure ContractRecoverSig where
  used : Bool
  s : Option ℤ
  paddingLen : ℕ
  deriving DecidableEq

variable (P : Prims) (tx : Tx) (c : ContractSpend)

def ContractSpend.preimage : Except Err Bytes :=
  bip143Preimage P tx c.contractInputIndex c.contractScriptCode c.identityValue sighashAllForkid

/-- The script of `contract_revoke_sign`. -/
def contractRevokeScript (ownerKey : EcdsaKey) : Except Err Bytes := do
  let preimage ← c.preimage P tx
  let ownerSig ← contractCallSignPreimage P preimage ownerKey sighashAllForkid
  let changeAmount ← contractCallPushIntI64 c.changeAmount
  let methodSelector ← contractCallPushIntI64 c.methodSelector
  return contractCallPushBytes ownerSig ++ contractCallPushBytes preimage ++ changeAmount
    ++ contractCallPushBytes c.changeHash160.1 ++ methodSelector

/-- The script of `contract_execute_sign`. -/
def contractExecuteScript (args : ContractExecuteArgs) : Except Err Bytes := do
  let preimage ← c.preimage P tx
  let agentSig ← contractCallSignPreimage P preimage args.agentKey sighashAllForkid
  let cpSig ← contractCallSignPreimage P preimage args.counterpartyKey sighashAllForkid
  let prevouts ← contractCallPrevouts tx
  let amount ← contractCallPushIntBn args.amount
  let attestedLimit ← contractCallPushIntBn args.attestedLimit
  let rabinS ← contractCallPushIntBn args.rabinS
  let changeAmount ← contractCallPushIntI64 c.changeAmount
  let methodSelector ← contractCallPushIntI64 c.methodSelector
  return contractCallPushBytes agentSig ++ contractCallPushBytes cpSig
    ++ contractCallPushBytes args.counterpartyPub33.1 ++ amount
    ++ contractCallPushBytes args.hash32.1 ++ contractCallPushBytes args.provenanceHash32.1
    ++ attestedLimit ++ rabinS ++ contractCallPushBytes args.rabinPadding
    ++ contractCallPushBytes preimage ++ changeAmount ++ contractCallPushBytes c.changeHash160.1
    ++ contractCallPushBytes prevouts ++ methodSelector

/-- The root of a guardian's slot, or that of an unused one. -/
def recoverRoot : Option ℤ → Except Err Bytes
  | some s => contractCallPushIntBn s
  | none => contractCallPushIntI64 0

/-- A guardian's slot: the root, and as many zero bytes as it was padded with, from a buffer of
256. -/
def recoverSlot (sig : ContractRecoverSig) : Except Err Bytes := do
  let s ← recoverRoot sig.s
  if 256 < sig.paddingLen then throw .einval
  return s ++ contractCallPushBytes (List.replicate sig.paddingLen 0)

/-- The script of `contract_recover_sign`. -/
def contractRecoverScript (newAgent33 : Block 33) (recoverSigs : Vector ContractRecoverSig 3) :
    Except Err Bytes := do
  let preimage ← c.preimage P tx
  let prevouts ← contractCallPrevouts tx
  let used ← recoverSigs.toList.mapM fun sig => contractCallPushIntI64 (if sig.used then 1 else 0)
  let slots ← recoverSigs.toList.mapM recoverSlot
  let changeAmount ← contractCallPushIntI64 c.changeAmount
  let methodSelector ← contractCallPushIntI64 c.methodSelector
  return contractCallPushBytes newAgent33.1 ++ used.flatten ++ slots.flatten
    ++ contractCallPushBytes preimage ++ changeAmount ++ contractCallPushBytes c.changeHash160.1
    ++ contractCallPushBytes prevouts ++ methodSelector

/-- The end of every method call: the script goes on the contract input, the funding inputs are
signed, and the transaction is serialized. -/
def finishCall (script : Bytes) (funding : List ContractFundingInput) : Except Err CString := do
  let b ← setScriptSig tx c.contractInputIndex script
  let b ← contractSignFundingInputs P b funding
  txBuilderBuildHex b

def contractRevokeSign (ownerKey : EcdsaKey) (funding : List ContractFundingInput) :
    Except Err CString := do
  let script ← contractRevokeScript P tx c ownerKey
  finishCall P tx c script funding

def contractExecuteSign (args : ContractExecuteArgs) (funding : List ContractFundingInput) :
    Except Err CString := do
  let script ← contractExecuteScript P tx c args
  finishCall P tx c script funding

def contractRecoverSign (newAgent33 : Block 33) (recoverSigs : Vector ContractRecoverSig 3)
    (funding : List ContractFundingInput) : Except Err CString := do
  let script ← contractRecoverScript P tx c newAgent33 recoverSigs
  finishCall P tx c script funding

end Methods

end BonsaiChain
