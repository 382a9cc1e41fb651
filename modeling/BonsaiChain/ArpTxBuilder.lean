import BonsaiChain.AttestorTea
import BonsaiChain.PublisherTea
import BonsaiChain.TxBuilders

/-!
# PublisherTea and AttestorTea builders

`txbuilders/arp_tx_builder.c`: the unsigned transactions for the methods of PublisherTea and
AttestorTea. The four state-keeping builders seed the change with the funding total; the four others
add the value of the spent contract output.
-/

namespace BonsaiChain

open Lib

/-- `arp_builder_opts_t`; NULL options are no funding and no change. -/
structure ArpBuilderOpts where
  funding : List FundingUtxo
  changeHash160 : Option (Block 20)
  hasChange : Bool
  deriving DecidableEq

/-- The change step every builder ends with. -/
def appendArpChange (P : Prims) (b : Tx) (opts : ArpBuilderOpts) (totalIn : UInt64) :
    Except Err Tx :=
  match opts.hasChange, opts.changeHash160 with
  | true, some changeHash160 => appendChange P b changeHash160 totalIn bonsaiFeePerKb
  | _, _ => .ok b

section PublisherTea

def stateAndReceiptTx (P : Prims) (next : PublisherTea) (utxo : ContractUtxo)
    (receiptPreimage : Bytes) (now : ℤ) (opts : ArpBuilderOpts) (b : Tx) : Except Err Tx := do
  let (b, fundingTotal) ← addInputs b utxo 0 opts.funding
  let script ← publisherTeaLockingScript next false
  let b := txBuilderAddOutput b script utxo.value
  let b ← appendOpreturnHash b (P.sha256 receiptPreimage)
  let b ← appendArpChange P b opts fundingTotal
  return txBuilderSetLocktime b (u32OfInt now)

def buildArpAnnounce (P : Prims) (c : PublisherTea) (utxo : ContractUtxo)
    (bundleHash fileSetRoot : Block 32) (now : ℤ) (opts : ArpBuilderOpts) (b : Tx) :
    Except Err Tx := do
  let receipt ← publisherTeaAnnounceReceipt c bundleHash fileSetRoot now
  let next := { c.state with
    pendingBundleHash := bundleHash.1
    pendingFileSetRoot := fileSetRoot.1
    pendingAnnounceTime := now }
  stateAndReceiptTx P { c with state := next } utxo receipt now opts b

def buildArpActivate (P : Prims) (c : PublisherTea) (utxo : ContractUtxo)
    (activateDigest : Block 32) (now : ℤ) (opts : ArpBuilderOpts) (b : Tx) : Except Err Tx := do
  let receipt ← publisherTeaActivateReceipt c activateDigest
  let next : PublisherTeaState := ⟨zero32, zero32, 0, c.state.releaseCount + 1⟩
  stateAndReceiptTx P { c with state := next } utxo receipt now opts b

def buildArpCancel (P : Prims) (c : PublisherTea) (utxo : ContractUtxo) (now : ℤ)
    (opts : ArpBuilderOpts) (b : Tx) : Except Err Tx := do
  let receipt ← publisherTeaCancelReceipt c
  let next : PublisherTeaState := ⟨zero32, zero32, 0, c.state.releaseCount⟩
  stateAndReceiptTx P { c with state := next } utxo receipt now opts b

def buildArpInvalidate (P : Prims) (c : PublisherTea) (utxo : ContractUtxo)
    (activateDigest : Block 32) (now : ℤ) (opts : ArpBuilderOpts) (b : Tx) : Except Err Tx := do
  let receipt ← publisherTeaInvalidateReceipt c activateDigest
  stateAndReceiptTx P c utxo receipt now opts b

def buildArpRetire (P : Prims) (c : PublisherTea) (utxo : ContractUtxo) (opts : ArpBuilderOpts)
    (b : Tx) : Except Err Tx := do
  if c.params.publisherKey.length ≠ 33 then throw .einval
  let (b, fundingTotal) ← addInputs b utxo 0xffffffff opts.funding
  let b := appendP2pkhPubkey P b c.params.publisherKey utxo.value
  appendArpChange P b opts (fundingTotal + utxo.value)

end PublisherTea

section AttestorTea

def buildArpAttestorSlash (P : Prims) (utxo : ContractUtxo) (reporter : Block 33)
    (opts : ArpBuilderOpts) (b : Tx) : Except Err Tx := do
  let bounty := utxo.value / 2
  let burn := utxo.value - bounty
  let (b, fundingTotal) ← addInputs b utxo 0xffffffff opts.funding
  let b := appendP2pkhPubkey P b reporter.1 bounty
  let op ← buildOpreturnScript slashedMarker
  let b := txBuilderAddOutput b op burn
  appendArpChange P b opts (fundingTotal + utxo.value)

def buildArpAttestorStake (P : Prims) (c : AttestorTea) (utxo : ContractUtxo) (addAmount : ℤ)
    (opts : ArpBuilderOpts) (b : Tx) : Except Err Tx := do
  let le ← bnToLeBytes (utxo.value.toNat + addAmount) 8
  let newBalance := UInt64.ofNat (leNat le)
  let (b, fundingTotal) ← addInputs b utxo 0xffffffff opts.funding
  let script ← attestorTeaLockingScript c
  let b := txBuilderAddOutput b script newBalance
  appendArpChange P b opts (fundingTotal + utxo.value)

def buildArpAttestorWithdraw (P : Prims) (c : AttestorTea) (utxo : ContractUtxo) (lockTime : ℤ)
    (opts : ArpBuilderOpts) (b : Tx) : Except Err Tx := do
  if c.params.operatorPubkey.length ≠ 33 then throw .einval
  let (b, fundingTotal) ← addInputs b utxo 0 opts.funding
  let b := appendP2pkhPubkey P b c.params.operatorPubkey utxo.value
  let b ← appendArpChange P b opts (fundingTotal + utxo.value)
  return txBuilderSetLocktime b (u32OfInt lockTime)

end AttestorTea

end BonsaiChain
