import BonsaiChain.Lib.Loop
import BonsaiChain.Script
import BonsaiChain.Tx

/-!
# Chain sources and chains

What is read off a raw transaction is the outpoint an input spends, and whether the transaction ends
an identity instead of recreating it at output 0. A chain source answers lookups, and any lookup may
fail. A chain is what an honest source reads: a partial map from outpoints to their spenders whose
raw transactions all deserialize. Chains only grow. The lineage of an identity outpoint follows
output 0 of each spender until it meets an unspent output or a spender that does not recreate the
identity.
-/

namespace BonsaiChain

open Lib

section TxParse

structure TxPrevout where
  txid : CString
  vout : UInt32
  deriving DecidableEq, Repr

def parsePrevout (rawTxHex : CString) (inputIndex : ℕ) : Except Err TxPrevout :=
  match txDeserialize rawTxHex with
  | .error _ => .error .eparse
  | .ok tx =>
    match tx.inputs[inputIndex]? with
    | none => .error .eparse
    | some inp => .ok ⟨inp.prevTxidDisplay, inp.vout⟩

/-- The test `is_terminal_spend` makes on a transaction it could parse. -/
def Tx.terminal (tx : Tx) : Bool :=
  match tx.outputs with
  | [] => true
  | out0 :: _ => isP2pkhOut out0.script

def isTerminalSpend (rawTxHex : CString) : Bool :=
  match txDeserialize rawTxHex with
  | .error _ => false
  | .ok tx => tx.terminal

end TxParse

/-- `chain_source_t` of a provider that has a spend index. The spend lookup answers `none` for an
unspent output. -/
structure ChainSource where
  getRawTx : CString → Except Err (Option CString)
  getTime : CString → Except Err Int
  getSpendingTxid : CString → UInt32 → Except Err (Option CString)

/-- Raw hex that deserializes, with what it deserializes to. -/
structure RawTx where
  hex : CString
  tx : Tx
  parses : txDeserialize hex = .ok tx

/-- A consistent chain. -/
structure Chain where
  spender : CString → UInt32 → Option CString
  rawTx : CString → Option RawTx
  spenderRaw : ∀ txid vout s, spender txid vout = some s → (rawTx s).isSome

namespace Chain

/-- Whether the transaction `s` ends an identity it spends. -/
def terminal (c : Chain) (s : CString) : Bool := (c.rawTx s).any fun r => r.tx.terminal

/-- Every spend and every transaction of `c` is still there in `c'`. -/
structure Grows (c c' : Chain) : Prop where
  spender : ∀ txid vout s, c.spender txid vout = some s → c'.spender txid vout = some s
  rawTx : ∀ txid r, c.rawTx txid = some r → c'.rawTx txid = some r

/-- One step along the spends of an identity whose outputs after the first have index `cont vout`:
it ends with `true` at a terminal spend and with `false` at an unspent output. -/
def spendStep (c : Chain) (cont : UInt32 → UInt32) : CString × UInt32 → Bool ⊕ (CString × UInt32)
  | (txid, vout) =>
    match c.spender txid vout with
    | none => .inl false
    | some s => if c.terminal s then .inl true else .inr (s, cont vout)

/-- The lineage of an outpoint: the identity is recreated at output 0 of each spender. -/
def lineageStep (c : Chain) : CString × UInt32 → Bool ⊕ (CString × UInt32) :=
  c.spendStep fun _ => 0

/-- The lineage of the outpoint contains a terminal spend. -/
def Revoked (c : Chain) (txid : CString) (vout : UInt32) : Prop :=
  Halts c.lineageStep (txid, vout) true

end Chain

/-- Every answer of `src` is an error or what is on the chain. -/
structure ChainSource.AnswersFrom (src : ChainSource) (c : Chain) : Prop where
  spender : ∀ txid vout a, src.getSpendingTxid txid vout = .ok a → a = c.spender txid vout
  rawTx : ∀ txid a, src.getRawTx txid = .ok a → a = (c.rawTx txid).map RawTx.hex

/-- The source that reads the chain and never fails. -/
def Chain.source (c : Chain) (time : CString → Int) : ChainSource where
  getRawTx txid := .ok ((c.rawTx txid).map RawTx.hex)
  getTime txid := .ok (time txid)
  getSpendingTxid txid vout := .ok (c.spender txid vout)

end BonsaiChain
