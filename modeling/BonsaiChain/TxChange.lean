import BonsaiChain.Lib.Binary64
import BonsaiChain.Tx
import Mathlib.Data.UInt

/-!
# Change settlement

`bsv/tx_change.c`: the size estimate and the settlement of the change output, whose satoshis are
seeded with the total of the spent outputs. A settlement takes any function for the fee, with the
two hash functions the contract builders call.
-/

namespace BonsaiChain

open Lib

/-- The hash functions of the crypto library and the fee of a size at a rate, which the code has
from `TxChange.feeForSize`. -/
structure Prims where
  sha256 : Bytes → Block 32
  hash160 : Bytes → Block 20
  feeForSize : ℕ → UInt64 → UInt64

def bonsaiFeePerKb : UInt64 := 50

def bonsaiMaxMoney : UInt64 := 2100000000000000

def inputSize (i : TxIn) : ℕ :=
  32 + 4 + (writeVarint i.scriptSig.length).length + i.scriptSig.length + 4

def outputSize (o : TxOut) : ℕ := 8 + (writeVarint o.script.length).length + o.script.length

def estimateSize (tx : Tx) : ℕ :=
  8 + (writeVarint tx.inputs.length).length + (writeVarint tx.outputs.length).length
    + (tx.inputs.map inputSize).sum + (tx.outputs.map outputSize).sum

namespace TxChange

/-- `(uint64_t)ceil(d)`; what does not fit is undefined in C and the greatest number on AArch64. -/
def ceilUInt64 (q : ℚ) : UInt64 := UInt64.ofNat (min ⌈q⌉.toNat (2 ^ 64 - 1))

/-- `fee_for_size`: every operation rounds. -/
def feeForSize (sizeBytes : ℕ) (feePerKb : UInt64) : UInt64 :=
  let kb := Binary64.round (Binary64.round sizeBytes / 1000)
  ceilUInt64 (Binary64.round (kb * Binary64.round feePerKb.toNat))

end TxChange

/-- The running sum of the outputs that are not the change output. -/
def sumOutputs : UInt64 → List TxOut → Except Err UInt64
  | acc, [] => .ok acc
  | acc, o :: os =>
    if o.satoshis > bonsaiMaxMoney ∨ o.satoshis > bonsaiMaxMoney - acc then .error .erange
    else sumOutputs (acc + o.satoshis) os

def updateChangeOutput (P : Prims) (tx : Tx) (changeIndex : ℕ) (feePerKb : UInt64) :
    Except Err Tx :=
  match tx.outputs[changeIndex]? with
  | none => .error .einval
  | some change =>
    let totalIn := change.satoshis
    if totalIn > bonsaiMaxMoney then .error .erange
    else do
      let outSum ← sumOutputs 0 (tx.outputs.eraseIdx changeIndex)
      if outSum > totalIn then throw .erange
      let available := totalIn - outSum
      let fee := P.feeForSize (estimateSize tx) feePerKb
      if available < fee then throw .erange
      let changeAmount := available - fee
      if changeAmount ≥ 1 then
        return { tx with
          outputs := tx.outputs.set changeIndex { change with satoshis := changeAmount } }
      else return { tx with outputs := tx.outputs.eraseIdx changeIndex }

end BonsaiChain
