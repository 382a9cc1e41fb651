import BonsaiChain.TxChange

/-!
# What the contract builders share

The output scripts of `bsv/script_utils.c`, the transaction of `bsv/tx_builder.c` that is grown by
one input or output at a time, and the helpers that stand alike in the three files under
`txbuilders/`, with the spent outputs they are given. Every builder grows the caller's transaction;
a failed builder's partial transaction is not used by any caller.
-/

namespace BonsaiChain

open Lib

section Scripts

def buildP2pkhScript (hash160 : Block 20) : Bytes :=
  [0x76, 0xa9, 0x14] ++ hash160.1 ++ [0x88, 0xac]

def buildOpreturnScript (data : Bytes) : Except Err Bytes :=
  if data.length < 0x4c then .ok ([0x00, 0x6a, UInt8.ofNat data.length] ++ data)
  else if data.length ≤ 0xff then .ok ([0x00, 0x6a, 0x4c, UInt8.ofNat data.length] ++ data)
  else if data.length ≤ 0xffff then .ok ([0x00, 0x6a, 0x4d] ++ leBytes 2 data.length ++ data)
  else .error .erange

end Scripts

section Builder

def txBuilderInit : Tx := ⟨1, [], [], 0⟩

def txBuilderAddInput (b : Tx) (prevTxidDisplay : CString) (vout : UInt32) (scriptSig : Bytes)
    (sequence : UInt32) : Except Err Tx :=
  if isHexLen prevTxidDisplay 32 then
    .ok { b with
      inputs := b.inputs ++ [⟨hexToLower prevTxidDisplay, vout, scriptSig, sequence⟩] }
  else .error .einval

def txBuilderAddOutput (b : Tx) (script : Bytes) (satoshis : UInt64) : Tx :=
  { b with outputs := b.outputs ++ [⟨satoshis, script⟩] }

def txBuilderSetLocktime (b : Tx) (locktime : UInt32) : Tx := { b with locktime := locktime }

end Builder

/-- `agent_tea_utxo_t`, `ricardian_tea_utxo_t` and `arp_utxo_t`. -/
structure ContractUtxo where
  txidDisplay : CString
  vout : UInt32
  value : UInt64
  deriving DecidableEq, Repr

/-- `funding_utxo_t`; `satoshis` is an `int64_t`. -/
structure FundingUtxo where
  txId : CString
  outputIndex : UInt32
  satoshis : ℤ
  deriving DecidableEq, Repr

/-- `SLASHED_MARKER`. -/
def slashedMarker : Bytes := ascii "SLASHED" ++ [0x00]

def addFunding (b : Tx) : List FundingUtxo → UInt64 → Except Err (Tx × UInt64)
  | [], totalIn => .ok (b, totalIn)
  | u :: us, totalIn => do
    let b ← txBuilderAddInput b u.txId u.outputIndex [] 0xffffffff
    addFunding b us (totalIn + u64OfInt u.satoshis)

def appendChange (P : Prims) (b : Tx) (changeHash160 : Block 20) (totalIn feePerKb : UInt64) :
    Except Err Tx :=
  let b := txBuilderAddOutput b (buildP2pkhScript changeHash160) totalIn
  updateChangeOutput P b (b.outputs.length - 1) feePerKb

def appendP2pkhPubkey (P : Prims) (b : Tx) (pubkey : Bytes) (satoshis : UInt64) : Tx :=
  txBuilderAddOutput b (buildP2pkhScript (P.hash160 pubkey)) satoshis

/-- A zero-value data output that carries a hash. -/
def appendOpreturnHash (b : Tx) (hash : Block 32) : Except Err Tx := do
  let op ← buildOpreturnScript hash.1
  return txBuilderAddOutput b op 0

/-- A spent contract output as input 0 and the funding outputs after it, with the funding total. -/
def addInputs (b : Tx) (utxo : ContractUtxo) (sequence : UInt32) (funding : List FundingUtxo) :
    Except Err (Tx × UInt64) := do
  let b ← txBuilderAddInput b utxo.txidDisplay utxo.vout [] sequence
  addFunding b funding 0

end BonsaiChain
