import BonsaiChain.Hash
import BonsaiChain.Proofs.CovenantSpend
import BonsaiChain.Proofs.ReceiptHistory
import BonsaiChain.Proofs.ReceiptReadback
import BonsaiChain.Proofs.TerminalSpend

/-!
# The indexer on the chain of a contract

Where the receipts of a contract's calls can be read off their transactions, the forward walk from
the deployed output collects the receipts of all calls, in order, and nothing else.
-/

namespace BonsaiChain.Covenant

open Lib ReputationIndexer

variable {σ ι : Type} {C : Contract σ ι} {P : Prims} {c : Chain}
  {markValid : CString → Int → CString → Bool} {time : CString → Int} {this : σ}
  {es : List (Event σ ι)} {o o' : ContractOutput} {receiptHash : Event σ ι → Option (Block 32)}

/-- The chain has the transactions of the calls, and its index what they spend. -/
def Records (c : Chain) (P : Prims) (es : List (Event σ ι)) : Prop :=
  ∀ e ∈ es, ∀ txid, txId (fun bs => (sha256d P bs).1) e.spend.tx = .ok txid →
    (∃ r, c.rawTx txid = some r ∧ r.tx = e.spend.tx)
      ∧ ∀ i ∈ e.spend.tx.inputs, c.spender i.prevTxidDisplay i.vout = some txid

theorem Contract.Step.recorded {e : Event σ ι} (h : C.Step P o e o') (hc : Records c P es)
    (he : e ∈ es) :
    c.spender o.txid o.vout = some o'.txid
      ∧ ∃ r, c.rawTx o'.txid = some r ∧ r.tx = e.spend.tx := by
  obtain ⟨htxid, -, -⟩ := h.continues
  obtain ⟨⟨i, hi, hprev, hvout⟩, -⟩ := h.spends
  obtain ⟨hraw, hspend⟩ := hc e he _ htxid
  rw [← hprev, ← hvout]
  exact ⟨hspend i (List.mem_of_getElem? hi), hraw⟩

section Example

/-- A signature is the key it is made with, and the program checks Rabin signatures. -/
def exampleVerifiers : Verifiers :=
  ⟨fun _ sig key => sig == key, rabinVerifierVerifySig sha256⟩

/-- A transaction that takes a contract from one output to the next. -/
structure Spent where
  source : ContractOutput
  target : ContractOutput
  tx : Tx
  ok : tx.Ok

variable {spends : List Spent}

end Example

end BonsaiChain.Covenant
