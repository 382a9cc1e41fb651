import BonsaiChain.ChainSource
import BonsaiChain.Lib.Reverse

/-!
# The receipt indexer

`collect_receipts` walks an identity forward over a spend index and collects the receipt of every
spender that has one. It stops at an unspent output, at a terminal spend, and after
`BONSAI_INDEXER_MAX_HOPS` hops, with what it has. `collect_receipts_backward` walks from a tip to
the genesis over the prevouts of one input, and turns what it collected around.
-/

namespace BonsaiChain

open Lib

/-- `tea_receipt_t`. -/
structure TeaReceipt where
  txid : CString
  time : Int
  receiptHash : CString
  valid : Bool
  erased : Bool
  deriving DecidableEq, Repr

namespace ReputationIndexer

def maxHops : ℕ := 5000000

/-- The receipt hash of the first output without value that carries one. -/
def firstReceipt : List TxOut → Option CString
  | [] => none
  | o :: os =>
    if o.satoshis ≠ 0 then firstReceipt os
    else
      match parseReceiptHash o.script with
      | .ok hash => some (hexEncode hash)
      | .error _ => firstReceipt os

def indexerParseReceiptHash (rawTxHex : CString) : Except Err (Option CString) :=
  match txDeserialize rawTxHex with
  | .error _ => .error .eparse
  | .ok tx => .ok (firstReceipt tx.outputs)

/-- The state of the walk: the outpoint to look up next and the receipts so far. -/
structure Cursor where
  txid : CString
  vout : UInt32
  receipts : List TeaReceipt
  deriving DecidableEq, Repr

/-- How the forward walk ends. -/
inductive CollectEnd where
  | unspent (receipts : List TeaReceipt)
  | terminal (receipts : List TeaReceipt)
  | hopLimit (receipts : List TeaReceipt)
  | failed (e : Err)
  deriving DecidableEq, Repr

variable (markValid : CString → Int → CString → Bool)

/-- Append the receipt of a spender that has one, with its ledger time. -/
def collectReceipt (src : ChainSource) (txid : CString) (receiptHash : Option CString)
    (receipts : List TeaReceipt) : Except Err (List TeaReceipt) :=
  match receiptHash with
  | none => .ok receipts
  | some hash =>
    match src.getTime txid with
    | .error e => .error e
    | .ok time =>
      let txid := txid.take 64
      let hash := hash.take 64
      .ok (receipts ++ [⟨txid, time, hash, markValid txid time hash, false⟩])

/-- One hop of the forward walk. -/
def collectHop (src : ChainSource) (cur : Cursor) : CollectEnd ⊕ Cursor :=
  match src.getSpendingTxid cur.txid cur.vout with
  | .error e => .inl (.failed e)
  | .ok none => .inl (.unspent cur.receipts)
  | .ok (some nextTxid) =>
    match src.getRawTx nextTxid with
    | .error e => .inl (.failed e)
    | .ok none => .inl (.failed .eparse)
    | .ok (some rawTx) =>
      if isTerminalSpend rawTx then .inl (.terminal cur.receipts)
      else
        match indexerParseReceiptHash rawTx with
        | .error e => .inl (.failed e)
        | .ok hash =>
          match collectReceipt markValid src nextTxid hash cur.receipts with
          | .error e => .inl (.failed e)
          | .ok receipts => .inr ⟨nextTxid, 0, receipts⟩

/-- The forward walk over a source whose answers may differ from hop to hop. -/
def collectWalk (src : ℕ → ChainSource) (genesisTxid : CString) (identityVout : UInt32) :
    CollectEnd :=
  match loop (fun i => collectHop markValid (src i)) maxHops 0 ⟨genesisTxid, identityVout, []⟩ with
  | .inl e => e
  | .inr cur => .hopLimit cur.receipts

def collectReceipts (src : ℕ → ChainSource) (genesisTxid : CString) (identityVout : UInt32) :
    Except Err (List TeaReceipt) :=
  match collectWalk markValid src genesisTxid identityVout with
  | .unspent receipts => .ok receipts
  | .terminal receipts => .ok receipts
  | .hopLimit receipts => .ok receipts
  | .failed e => .error e

section Backward

def maxBackwardHops : ℕ := 100000

/-- The state of the backward walk: the transaction to read next and the receipts so far, newest
first. -/
structure BackCursor where
  txid : CString
  receipts : List TeaReceipt
  deriving DecidableEq, Repr

/-- One hop of the backward walk, which ends at the genesis. -/
def backwardHop (src : ChainSource) (genesisTxid : CString) (inputIndex : ℕ) (cur : BackCursor) :
    Except Err (List TeaReceipt) ⊕ BackCursor :=
  if cur.txid = genesisTxid then .inl (.ok cur.receipts)
  else
    match src.getRawTx cur.txid with
    | .error e => .inl (.error e)
    | .ok none => .inl (.error .eparse)
    | .ok (some rawTx) =>
      if isTerminalSpend rawTx then .inl (.error .eparse)
      else
        match indexerParseReceiptHash rawTx with
        | .error e => .inl (.error e)
        | .ok hash =>
          match collectReceipt markValid src cur.txid hash cur.receipts with
          | .error e => .inl (.error e)
          | .ok receipts =>
            match parsePrevout rawTx inputIndex with
            | .error e => .inl (.error e)
            | .ok prev => .inr ⟨prev.txid, receipts⟩

/-- The hop budget in force: 0 asks for the default. -/
def backwardBudget (hops : ℕ) : ℕ := if hops = 0 then maxBackwardHops else hops

/-- The backward walk, newest first. -/
def backwardWalk (src : ℕ → ChainSource) (tipTxid genesisTxid : CString) (inputIndex hops : ℕ) :
    Except Err (List TeaReceipt) :=
  match loop (fun i => backwardHop markValid (src i) genesisTxid inputIndex) (backwardBudget hops) 0
      ⟨tipTxid, []⟩ with
  | .inl r => r
  | .inr cur => if cur.txid = genesisTxid then .ok cur.receipts else .error .ehoplimit

def collectReceiptsBackward (src : ℕ → ChainSource) (tipTxid genesisTxid : CString)
    (inputIndex hops : ℕ) : Except Err (List TeaReceipt) :=
  match backwardWalk markValid src tipTxid genesisTxid inputIndex hops with
  | .error e => .error e
  | .ok receipts => .ok (reverseInPlace receipts.toArray).toList

end Backward

end ReputationIndexer

end BonsaiChain
