import BonsaiChain.ReputationIndexer

/-!
# The history of an identity

Which receipts an identity has, apart from how they are walked. On an indexed chain without cycles
the identity transactions behind a genesis outpoint form a list, and each of them carries one
receipt or none.
-/

namespace BonsaiChain

open Lib Relation ReputationIndexer

namespace Chain

/-- The spend index has every input of every transaction. -/
def Indexed (c : Chain) : Prop :=
  ∀ s r, c.rawTx s = some r → ∀ i ∈ r.tx.inputs, c.spender i.prevTxidDisplay i.vout = some s

/-- Some output of `txid` is spent by `s`. -/
def SpentBy (c : Chain) (txid s : CString) : Prop := ∃ vout, c.spender txid vout = some s

/-- No transaction is its own ancestor. -/
def Acyclic (c : Chain) : Prop := ∀ txid, ¬TransGen c.SpentBy txid txid

/-- The identity transactions behind the outpoint, oldest first: each spends the identity output
before it with its first input and recreates the identity at output 0, and the output of the last is
unspent. -/
inductive Lineage (c : Chain) : CString → UInt32 → List CString → Prop
  | tip {txid : CString} {vout : UInt32} (h : c.spender txid vout = none) : Lineage c txid vout []
  | next {txid s : CString} {vout : UInt32} {ts : List CString} {r : RawTx} {i : TxIn}
      (hraw : c.rawTx s = some r) (hin : r.tx.inputs[0]? = some i)
      (hprev : i.prevTxidDisplay = txid ∧ i.vout = vout) (hlive : r.tx.terminal = false)
      (h : Lineage c s 0 ts) : Lineage c txid vout (s :: ts)

/-- The receipt of a transaction, if it carries one. -/
def receiptOf (c : Chain) (markValid : CString → Int → CString → Bool) (time : CString → Int)
    (txid : CString) : List TeaReceipt :=
  match (c.rawTx txid).bind fun r => firstReceipt r.tx.outputs with
  | none => []
  | some hash =>
    [⟨txid.take 64, time txid, hash.take 64,
      markValid (txid.take 64) (time txid) (hash.take 64), false⟩]

end Chain

end BonsaiChain
