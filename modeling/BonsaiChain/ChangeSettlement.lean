import BonsaiChain.Lib.Results
import BonsaiChain.TxChange

/-!
# The change output in place

`update_change_output` as it works on the caller's transaction: what it writes is in the transaction
also when it returns an error afterwards. `Settled` says what a settlement leaves of the total that
was seeded, in exact arithmetic.
-/

namespace BonsaiChain

section InPlace

def bonsaiDustAmount : UInt64 := 1

/-- The loop over the outputs, from index `i` on, that passes over the change output. -/
def sumOutputsBut (changeIndex : ℕ) : ℕ → UInt64 → List TxOut → Except Err UInt64
  | _, outSum, [] => .ok outSum
  | i, outSum, o :: os =>
    if i = changeIndex then sumOutputsBut changeIndex (i + 1) outSum os
    else if o.satoshis > bonsaiMaxMoney ∨ o.satoshis > bonsaiMaxMoney - outSum then .error .erange
    else sumOutputsBut changeIndex (i + 1) (outSum + o.satoshis) os

/-- `tx->outputs[i].satoshis = amount`. -/
def setSatoshis (os : List TxOut) (i : ℕ) (amount : UInt64) : List TxOut :=
  os.modify i fun o => { o with satoshis := amount }

/-- `tx->outputs[i] = tx->outputs[i + 1]`, for `n` outputs from index `i` on. -/
def shiftOutputs : ℕ → ℕ → List TxOut → List TxOut
  | 0, _, os => os
  | n + 1, i, os => shiftOutputs n (i + 1) (os.set i (os.getD (i + 1) ⟨0, []⟩))

/-- The outputs behind the removed one move down, and the last place is given up. -/
def removeOutput (os : List TxOut) (i : ℕ) : List TxOut :=
  (shiftOutputs (os.length - 1 - i) i os).take (os.length - 1)

/-- `update_change_output`, on the transaction in the state. -/
def updateChangeOutputInPlace (P : Prims) (changeIndex : ℕ) (feePerKb : UInt64) :
    ExceptT Err (StateM Tx) Unit := do
  let tx ← get
  if changeIndex ≥ tx.outputs.length then throw .einval
  let totalIn := (tx.outputs.getD changeIndex ⟨0, []⟩).satoshis
  if totalIn > bonsaiMaxMoney then throw .erange
  let outSum ← sumOutputsBut changeIndex 0 0 tx.outputs
  if outSum > totalIn then throw .erange
  let available := totalIn - outSum
  let fee := P.feeForSize (estimateSize tx) feePerKb
  if available < fee then throw .erange
  let changeAmount := available - fee
  if changeAmount ≥ bonsaiDustAmount then
    modify fun tx => { tx with outputs := setSatoshis tx.outputs changeIndex changeAmount }
  else
    modify fun tx => { tx with outputs := removeOutput tx.outputs changeIndex }

end InPlace

end BonsaiChain
