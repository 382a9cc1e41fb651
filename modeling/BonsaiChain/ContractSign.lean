import BonsaiChain.Base58
import BonsaiChain.Ecdsa
import BonsaiChain.ScriptCodec

/-!
# Signing a deployment

The preimage an input's signature is over, `bsv/sighash.c`: nothing of it is an unlocking script.
The funding inputs of `txbuilders/contract_sign.c`: each is signed in its turn, on the caller's
transaction, and the transaction is then serialized.
-/

namespace BonsaiChain

open Lib

section Sighash

def sighashAllForkid : UInt8 := 0x41

/-- `append_outpoint`. -/
def outpointBytes (i : TxIn) : Except Err Bytes := do
  let be ← hexDecodeFixed i.prevTxidDisplay 32
  return be.reverse ++ u32le i.vout

def bip143Preimage (P : Prims) (tx : Tx) (inputIndex : ℕ) (scriptCode : Bytes)
    (inputSatoshis : UInt64) (sighashType : UInt8) : Except Err Bytes :=
  match tx.inputs[inputIndex]? with
  | none => .error .einval
  | some i => do
    let prevouts ← tx.inputs.mapM outpointBytes
    let outpoint ← outpointBytes i
    return u32le tx.version ++ (sha256d P prevouts.flatten).1
      ++ (sha256d P (tx.inputs.flatMap fun i => u32le i.sequence)).1 ++ outpoint
      ++ printSized scriptCode ++ u64le inputSatoshis ++ u32le i.sequence
      ++ (sha256d P (tx.outputs.flatMap printTxOut)).1 ++ u32le tx.locktime
      ++ leBytes 4 sighashType.toNat

def bip143Sighash (P : Prims) (tx : Tx) (inputIndex : ℕ) (scriptCode : Bytes)
    (inputSatoshis : UInt64) (sighashType : UInt8) : Except Err (Block 32) :=
  (bip143Preimage P tx inputIndex scriptCode inputSatoshis sighashType).map (sha256d P)

end Sighash

structure ContractFundingInput where
  inputIndex : ℕ
  scriptCode : Bytes
  value : UInt64
  key : EcdsaKey

/-- `contract_call_p2pkh_scriptsig`; `contract_call_push_bytes` writes what `push_data` does. -/
def contractCallP2pkhScriptsig (P : Prims) (tx : Tx) (f : ContractFundingInput) :
    Except Err Bytes := do
  let digest ← bip143Sighash P tx f.inputIndex f.scriptCode f.value sighashAllForkid
  let der ← f.key.signLowS digest
  let pub ← f.key.pubkey
  return pushData (der ++ [sighashAllForkid]) ++ pushData pub.1

def setScriptSig (b : Tx) (index : ℕ) (script : Bytes) : Except Err Tx :=
  if b.inputs.length ≤ index then .error .einval
  else .ok { b with inputs := b.inputs.modify index fun i => { i with scriptSig := script } }

def contractSignFundingInputs (P : Prims) (b : Tx) : List ContractFundingInput → Except Err Tx
  | [] => .ok b
  | f :: fs => do
    let ss ← contractCallP2pkhScriptsig P b f
    let b ← setScriptSig b f.inputIndex ss
    contractSignFundingInputs P b fs

def txBuilderBuildHex (b : Tx) : Except Err CString := (txSerialize b).map hexEncode

def buildContractDeploy (P : Prims) (b : Tx) (funding : List ContractFundingInput) :
    Except Err CString := do
  let b ← contractSignFundingInputs P b funding
  txBuilderBuildHex b

end BonsaiChain
