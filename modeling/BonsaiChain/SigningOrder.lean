import BonsaiChain.ContractCall

/-!
# The steps of signing

The method calls and the funding inputs as single steps, each of which computes the script of one
input from the transaction as it finds it and writes it there.
-/

namespace BonsaiChain

/-- What one step signs. -/
inductive SignStep where
  | funding (f : ContractFundingInput)
  | revoke (c : ContractSpend) (ownerKey : EcdsaKey)
  | execute (c : ContractSpend) (args : ContractExecuteArgs)
  | recover (c : ContractSpend) (newAgent33 : Block 33) (sigs : Vector ContractRecoverSig 3)

namespace SignStep

def index : SignStep → ℕ
  | .funding f => f.inputIndex
  | .revoke c _ => c.contractInputIndex
  | .execute c _ => c.contractInputIndex
  | .recover c _ _ => c.contractInputIndex

variable (P : Prims)

def scriptSig (tx : Tx) : SignStep → Except Err Bytes
  | .funding f => contractCallP2pkhScriptsig P tx f
  | .revoke c ownerKey => contractRevokeScript P tx c ownerKey
  | .execute c args => contractExecuteScript P tx c args
  | .recover c newAgent33 sigs => contractRecoverScript P tx c newAgent33 sigs

/-- The step on a transaction. -/
def sign (tx : Tx) (s : SignStep) : Except Err Tx := do
  let script ← s.scriptSig P tx
  setScriptSig tx s.index script

/-- Steps one after another. -/
def signAll (tx : Tx) (steps : List SignStep) : Except Err Tx := steps.foldlM (sign P) tx

end SignStep

section Committed

/-- The input without what unlocks it. -/
def TxIn.unsigned (i : TxIn) : TxIn := { i with scriptSig := [] }

/-- The transaction without what unlocks its inputs. -/
def Tx.unsigned (tx : Tx) : Tx := { tx with inputs := tx.inputs.map TxIn.unsigned }

/-- The spent transaction's bytes and the output of it that is spent. -/
def TxIn.outpoint (i : TxIn) : Except Err Bytes × UInt32 := (hexDecode i.prevTxidDisplay, i.vout)

/-- The three texts of a transaction of which the preimage has the hash. -/
def hashedTexts (tx : Tx) : Set Bytes :=
  {bs | contractCallPrevouts tx = .ok bs ∨ bs = tx.inputs.flatMap (fun i => u32le i.sequence)
    ∨ bs = tx.outputs.flatMap printTxOut}

end Committed

end BonsaiChain
