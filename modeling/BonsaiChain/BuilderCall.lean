import BonsaiChain.AgentTeaTxBuilder
import BonsaiChain.ArpTxBuilder
import BonsaiChain.RicardianTeaTxBuilder

/-!
# Builder calls

A call of one of the contract builders with all its arguments, the transaction it builds
from a fresh builder, and the change its options ask for.
-/

namespace BonsaiChain

/-- The change a caller asks for: none, or an output after a fixed fee or after the fee of the size
at a rate. -/
inductive ChangeRequest where
  | none
  | fixedFee (changeHash160 : Block 20) (feeSats : UInt64)
  | perKb (changeHash160 : Block 20) (feePerKb : UInt64)

namespace ChangeRequest

def hash : ChangeRequest → Option (Block 20)
  | .none => Option.none
  | .fixedFee changeHash160 _ | .perKb changeHash160 _ => some changeHash160

/-- The fee for a transaction of the given size. -/
def fee (P : Prims) (size : ℕ) : ChangeRequest → UInt64
  | .none => 0
  | .fixedFee _ feeSats => feeSats
  | .perKb _ feePerKb => P.feeForSize size feePerKb

end ChangeRequest

def AgentTeaBuilderOpts.request (opts : AgentTeaBuilderOpts) : ChangeRequest :=
  match opts.hasChange, opts.changeHash160 with
  | true, some changeHash160 =>
    if opts.hasFeeSats then .fixedFee changeHash160 opts.feeSats
    else .perKb changeHash160 bonsaiFeePerKb
  | _, _ => .none

def RicardianTeaBuilderOpts.request (opts : RicardianTeaBuilderOpts) : ChangeRequest :=
  match opts.hasChange, opts.changeHash160 with
  | true, some changeHash160 => .perKb changeHash160 opts.rate
  | _, _ => .none

def ArpBuilderOpts.request (opts : ArpBuilderOpts) : ChangeRequest :=
  match opts.hasChange, opts.changeHash160 with
  | true, some changeHash160 => .perKb changeHash160 bonsaiFeePerKb
  | _, _ => .none

/-- The value of the output after the pinned ones, 0 where there is none. -/
def changeAmount (pinned : ℕ) (tx : Tx) : UInt64 :=
  ((tx.outputs[pinned]?).map (·.satoshis)).getD 0

inductive BuilderCall where
  | arpAnnounce (c : PublisherTea) (utxo : ContractUtxo) (bundleHash fileSetRoot : Block 32)
      (now : ℤ)
      (opts : ArpBuilderOpts)
  | arpActivate (c : PublisherTea) (utxo : ContractUtxo) (activateDigest : Block 32) (now : ℤ)
      (opts : ArpBuilderOpts)
  | arpCancel (c : PublisherTea) (utxo : ContractUtxo) (now : ℤ) (opts : ArpBuilderOpts)
  | arpInvalidate (c : PublisherTea) (utxo : ContractUtxo) (activateDigest : Block 32) (now : ℤ)
      (opts : ArpBuilderOpts)
  | arpRetire (c : PublisherTea) (utxo : ContractUtxo) (opts : ArpBuilderOpts)
  | arpAttestorSlash (utxo : ContractUtxo) (reporter : Block 33) (opts : ArpBuilderOpts)
  | arpAttestorStake (c : AttestorTea) (utxo : ContractUtxo) (addAmount : ℤ) (opts : ArpBuilderOpts)
  | arpAttestorWithdraw (c : AttestorTea) (utxo : ContractUtxo) (lockTime : ℤ)
      (opts : ArpBuilderOpts)
  | agentTeaAction (c : AgentTea) (identity : ContractUtxo) (counterparty : Block 33) (amount : ℤ)
      (actionHash provenanceHash : Block 32) (now : ℤ) (opts : AgentTeaBuilderOpts)
  | agentTeaStake (c : AgentTea) (identity : ContractUtxo) (addAmount : ℤ)
      (opts : AgentTeaBuilderOpts)
  | agentTeaSlashValidator (identity : ContractUtxo) (reporter : Block 33)
      (opts : AgentTeaBuilderOpts)
  | agentTeaRecover (c : AgentTea) (identity : ContractUtxo) (newAgent : Block 33)
      (opts : AgentTeaBuilderOpts)
  | agentTeaRevoke (c : AgentTea) (identity : ContractUtxo) (opts : AgentTeaBuilderOpts)
  | ricardianTeaExecute (c : RicardianTea) (identity : ContractUtxo) (counterparty : Block 33)
      (amount : ℤ) (invoiceHash provenanceHash : Block 32) (now : ℤ)
      (opts : RicardianTeaBuilderOpts)
  | ricardianTeaRevoke (c : RicardianTea) (identity : ContractUtxo) (opts : RicardianTeaBuilderOpts)
  | ricardianTeaSlash (identity : ContractUtxo) (reporter : Block 33)
      (opts : RicardianTeaBuilderOpts)
  | ricardianTeaCheckpoint (c : RicardianTea) (identity : ContractUtxo)
      (newCheckpointHash : Block 32) (opts : RicardianTeaBuilderOpts)

namespace BuilderCall

def build (P : Prims) : BuilderCall → Except Err Tx
  | .arpAnnounce c utxo bundleHash fileSetRoot now opts =>
    buildArpAnnounce P c utxo bundleHash fileSetRoot now opts txBuilderInit
  | .arpActivate c utxo activateDigest now opts =>
    buildArpActivate P c utxo activateDigest now opts txBuilderInit
  | .arpCancel c utxo now opts => buildArpCancel P c utxo now opts txBuilderInit
  | .arpInvalidate c utxo activateDigest now opts =>
    buildArpInvalidate P c utxo activateDigest now opts txBuilderInit
  | .arpRetire c utxo opts => buildArpRetire P c utxo opts txBuilderInit
  | .arpAttestorSlash utxo reporter opts => buildArpAttestorSlash P utxo reporter opts txBuilderInit
  | .arpAttestorStake c utxo addAmount opts =>
    buildArpAttestorStake P c utxo addAmount opts txBuilderInit
  | .arpAttestorWithdraw c utxo lockTime opts =>
    buildArpAttestorWithdraw P c utxo lockTime opts txBuilderInit
  | .agentTeaAction c identity counterparty amount actionHash provenanceHash now opts =>
    buildAgentTeaAction P c identity counterparty amount actionHash provenanceHash now opts
      txBuilderInit
  | .agentTeaStake c identity addAmount opts =>
    buildAgentTeaStake P c identity addAmount opts txBuilderInit
  | .agentTeaSlashValidator identity reporter opts =>
    buildAgentTeaSlashValidator P identity reporter opts txBuilderInit
  | .agentTeaRecover c identity newAgent opts =>
    buildAgentTeaRecover P c identity newAgent opts txBuilderInit
  | .agentTeaRevoke c identity opts => buildAgentTeaRevoke P c identity opts txBuilderInit
  | .ricardianTeaExecute c identity counterparty amount invoiceHash provenanceHash now opts =>
    buildRicardianTeaExecute P c identity counterparty amount invoiceHash provenanceHash now opts
      txBuilderInit
  | .ricardianTeaRevoke c identity opts => buildRicardianTeaRevoke P c identity opts txBuilderInit
  | .ricardianTeaSlash identity reporter opts =>
    buildRicardianTeaSlash P identity reporter opts txBuilderInit
  | .ricardianTeaCheckpoint c identity newCheckpointHash opts =>
    buildRicardianTeaCheckpoint P c identity newCheckpointHash opts txBuilderInit

/-- The contract output the call spends. -/
def utxo : BuilderCall → ContractUtxo
  | .arpAnnounce _ utxo _ _ _ _ | .arpActivate _ utxo _ _ _ | .arpCancel _ utxo _ _
  | .arpInvalidate _ utxo _ _ _ | .arpRetire _ utxo _ | .arpAttestorSlash utxo _ _
  | .arpAttestorStake _ utxo _ _ | .arpAttestorWithdraw _ utxo _ _
  | .agentTeaAction _ utxo _ _ _ _ _ _ | .agentTeaStake _ utxo _ _
  | .agentTeaSlashValidator utxo _ _
  | .agentTeaRecover _ utxo _ _ | .agentTeaRevoke _ utxo _ | .ricardianTeaExecute _ utxo _ _ _ _ _ _
  | .ricardianTeaRevoke _ utxo _ | .ricardianTeaSlash utxo _ _
  | .ricardianTeaCheckpoint _ utxo _ _ =>
    utxo

/-- The funding outputs the call spends. -/
def funding : BuilderCall → List FundingUtxo
  | .arpAnnounce _ _ _ _ _ opts | .arpActivate _ _ _ _ opts | .arpCancel _ _ _ opts
  | .arpInvalidate _ _ _ _ opts | .arpRetire _ _ opts | .arpAttestorSlash _ _ opts
  | .arpAttestorStake _ _ _ opts | .arpAttestorWithdraw _ _ _ opts => opts.funding
  | .agentTeaAction _ _ _ _ _ _ _ opts | .agentTeaStake _ _ _ opts
  | .agentTeaSlashValidator _ _ opts | .agentTeaRecover _ _ _ opts | .agentTeaRevoke _ _ opts =>
    opts.funding
  | .ricardianTeaExecute _ _ _ _ _ _ _ opts | .ricardianTeaRevoke _ _ opts
  | .ricardianTeaSlash _ _ opts | .ricardianTeaCheckpoint _ _ _ opts => opts.funding

def request : BuilderCall → ChangeRequest
  | .arpAnnounce _ _ _ _ _ opts | .arpActivate _ _ _ _ opts | .arpCancel _ _ _ opts
  | .arpInvalidate _ _ _ _ opts | .arpRetire _ _ opts | .arpAttestorSlash _ _ opts
  | .arpAttestorStake _ _ _ opts | .arpAttestorWithdraw _ _ _ opts => opts.request
  | .agentTeaAction _ _ _ _ _ _ _ opts | .agentTeaStake _ _ _ opts
  | .agentTeaSlashValidator _ _ opts | .agentTeaRecover _ _ _ opts | .agentTeaRevoke _ _ opts =>
    opts.request
  | .ricardianTeaExecute _ _ _ _ _ _ _ opts | .ricardianTeaRevoke _ _ opts
  | .ricardianTeaSlash _ _ opts | .ricardianTeaCheckpoint _ _ _ opts => opts.request

/-- How many outputs stand before the change output. -/
def pinned : BuilderCall → ℕ
  | .arpRetire .. | .arpAttestorStake .. | .arpAttestorWithdraw .. | .agentTeaStake ..
  | .agentTeaRevoke .. | .ricardianTeaRevoke .. | .ricardianTeaSlash ..
  | .ricardianTeaCheckpoint .. => 1
  | .arpAnnounce .. | .arpActivate .. | .arpCancel .. | .arpInvalidate .. | .arpAttestorSlash ..
  | .agentTeaAction .. | .agentTeaSlashValidator .. | .agentTeaRecover .. => 2
  | .ricardianTeaExecute .. => 3

/-- The four builders that pass through `state_and_receipt_tx`. -/
def isStateAndReceipt : BuilderCall → Bool
  | .arpAnnounce .. | .arpActivate .. | .arpCancel .. | .arpInvalidate .. => true
  | _ => false

end BuilderCall

end BonsaiChain
