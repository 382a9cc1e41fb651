import BonsaiChain.RicardianTea
import BonsaiChain.TxBuilders

/-!
# RicardianTea builders

`txbuilders/ricardian_tea_tx_builder.c`: the unsigned transactions for the four methods of
RicardianTea.
-/

namespace BonsaiChain

open Lib

/-- `ricardian_tea_builder_opts_t`; NULL options are no funding, no change and rate 0. -/
structure RicardianTeaBuilderOpts where
  funding : List FundingUtxo
  changeHash160 : Option (Block 20)
  hasChange : Bool
  feePerKb : UInt64
  deriving DecidableEq

def RicardianTeaBuilderOpts.rate (opts : RicardianTeaBuilderOpts) : UInt64 :=
  if opts.feePerKb ≠ 0 then opts.feePerKb else bonsaiFeePerKb

def bnToU64 (n : ℤ) : Except Err UInt64 := do
  let le ← bnToLeBytes n 8
  return UInt64.ofNat (leNat le)

/-- The change step every builder ends with. -/
def appendRicardianTeaChange (P : Prims) (b : Tx) (opts : RicardianTeaBuilderOpts)
    (totalIn : UInt64) : Except Err Tx :=
  match opts.hasChange, opts.changeHash160 with
  | true, some changeHash160 => appendChange P b changeHash160 totalIn opts.rate
  | _, _ => .ok b

/-- `append_state_output`. -/
def appendRicardianTeaState (b : Tx) (c : RicardianTea) (balance : UInt64) : Except Err Tx := do
  let script ← ricardianTeaLockingScript c false
  return txBuilderAddOutput b script balance

def buildRicardianTeaExecute (P : Prims) (c : RicardianTea) (identity : ContractUtxo)
    (counterparty : Block 33) (amount : ℤ) (invoiceHash provenanceHash : Block 32) (now : ℤ)
    (opts : RicardianTeaBuilderOpts) (b : Tx) : Except Err Tx := do
  let receiptHex ← ricardianTeaReceiptHash P c counterparty amount invoiceHash provenanceHash now
  let receiptHash ← hexDecodeFixed receiptHex 32
  let amountSats ← bnToU64 amount
  let (b, fundingTotal) ← addInputs b identity 0 opts.funding
  let next := ricardianTeaApplyAction c amount now
  let b ← appendRicardianTeaState b { c with state := next } identity.value
  let b := appendP2pkhPubkey P b counterparty.1 amountSats
  let op ← buildOpreturnScript receiptHash
  let b := txBuilderAddOutput b op 0
  let b ← appendRicardianTeaChange P b opts (fundingTotal + identity.value)
  return txBuilderSetLocktime b (u32OfInt now)

def buildPayoutToPubkey (P : Prims) (identity : ContractUtxo) (payeePubkey : Bytes)
    (opts : RicardianTeaBuilderOpts) (b : Tx) : Except Err Tx := do
  let (b, fundingTotal) ← addInputs b identity 0xffffffff opts.funding
  let b := appendP2pkhPubkey P b payeePubkey identity.value
  appendRicardianTeaChange P b opts (fundingTotal + identity.value)

def buildRicardianTeaRevoke (P : Prims) (c : RicardianTea) (identity : ContractUtxo)
    (opts : RicardianTeaBuilderOpts) (b : Tx) : Except Err Tx :=
  if c.params.owner.length ≠ 33 then .error .einval
  else buildPayoutToPubkey P identity c.params.owner opts b

def buildRicardianTeaSlash (P : Prims) (identity : ContractUtxo) (reporter : Block 33)
    (opts : RicardianTeaBuilderOpts) (b : Tx) : Except Err Tx :=
  buildPayoutToPubkey P identity reporter.1 opts b

def buildRicardianTeaCheckpoint (P : Prims) (c : RicardianTea) (identity : ContractUtxo)
    (newCheckpointHash : Block 32) (opts : RicardianTeaBuilderOpts) (b : Tx) : Except Err Tx := do
  let next := { c.state with slashCheckpointHash := newCheckpointHash.1 }
  let (b, fundingTotal) ← addInputs b identity 0xffffffff opts.funding
  let b ← appendRicardianTeaState b { c with state := next } identity.value
  appendRicardianTeaChange P b opts (fundingTotal + identity.value)

end BonsaiChain
