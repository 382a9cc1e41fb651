import BonsaiChain.AgentTeaCovenant
import BonsaiChain.BuilderCall
import BonsaiChain.RicardianTeaCovenant

/-!
# The methods of AgentTea and RicardianTea

A call of a method with the arguments of its builder and of its covenant: the transaction the
builder makes and the byte string the covenant hashes.
-/

namespace BonsaiChain

/-- The contract on chain whose constants and state section are the instance's. -/
def AgentTea.deployed (c : AgentTea) (code : Bytes) : Covenant.AgentTea :=
  ⟨code, c.artifact.stateProps, c.params, c.params.agent, c.state⟩

def RicardianTea.deployed (c : RicardianTea) (code : Bytes) : Covenant.RicardianTea :=
  ⟨code, c.artifact.stateProps, c.params, c.state⟩

inductive TeaMethod where
  | executeAction (c : AgentTea) (counterparty : Block 33) (amount : ℤ)
      (actionHash provenanceHash : Block 32) (attestedLimit now : ℤ) (opts : AgentTeaBuilderOpts)
  | stake (c : AgentTea) (addAmount : ℤ) (opts : AgentTeaBuilderOpts)
  | slashValidator (c : AgentTea) (attAmount attLimit : ℤ) (reporter : Block 33)
      (opts : AgentTeaBuilderOpts)
  | recover (c : AgentTea) (newAgent : Block 33) (recoverUsed : Vector Bool 3)
      (opts : AgentTeaBuilderOpts)
  | revokeAgent (c : AgentTea) (opts : AgentTeaBuilderOpts)
  | executeTea (c : RicardianTea) (counterparty : Block 33) (amount : ℤ)
      (invoiceHash provenanceHash : Block 32) (attestedLimit now : ℤ)
      (opts : RicardianTeaBuilderOpts)
  | slash (c : RicardianTea) (attAmount attLimit confirmationCount : ℤ) (reporter : Block 33)
      (opts : RicardianTeaBuilderOpts)
  | updateSlashCheckpoint (c : RicardianTea) (headerCount : ℤ) (newCheckpointHash : Block 32)
      (opts : RicardianTeaBuilderOpts)
  | revokeRicardian (c : RicardianTea) (opts : RicardianTeaBuilderOpts)

namespace TeaMethod

/-- The builder call of the method. -/
def call (identity : ContractUtxo) : TeaMethod → BuilderCall
  | executeAction c counterparty amount actionHash provenanceHash _ now opts =>
    .agentTeaAction c identity counterparty amount actionHash provenanceHash now opts
  | stake c addAmount opts => .agentTeaStake c identity addAmount opts
  | slashValidator _ _ _ reporter opts => .agentTeaSlashValidator identity reporter opts
  | recover c newAgent _ opts => .agentTeaRecover c identity newAgent opts
  | revokeAgent c opts => .agentTeaRevoke c identity opts
  | executeTea c counterparty amount invoiceHash provenanceHash _ now opts =>
    .ricardianTeaExecute c identity counterparty amount invoiceHash provenanceHash now opts
  | slash _ _ _ _ reporter opts => .ricardianTeaSlash identity reporter opts
  | updateSlashCheckpoint c _ newCheckpointHash opts =>
    .ricardianTeaCheckpoint c identity newCheckpointHash opts
  | revokeRicardian c opts => .ricardianTeaRevoke c identity opts

def artifact : TeaMethod → ScryptArtifact
  | executeAction c .. | stake c .. | slashValidator c .. | recover c .. | revokeAgent c .. =>
    c.artifact
  | executeTea c .. | slash c .. | updateSlashCheckpoint c .. | revokeRicardian c .. => c.artifact

/-- The locking script on chain, with the agent key of the parameters in the state section. -/
def onChain (isGenesis : Bool) : TeaMethod → Except Err Bytes
  | executeAction c .. | stake c .. | slashValidator c .. | recover c .. | revokeAgent c .. =>
    agentTeaLockingScript c isGenesis
  | executeTea c .. | slash c .. | updateSlashCheckpoint c .. | revokeRicardian c .. =>
    ricardianTeaLockingScript c isGenesis

/-- The method's own numeric `require`s, at a time that is a locktime of four signed bytes. -/
def requires : TeaMethod → Prop
  | executeAction c _ amount _ _ attestedLimit now _ => (0 ≤ now ∧ now < 2 ^ 31)
      ∧ Covenant.AgentTea.executeActionRequires c.params c.state amount attestedLimit now
  | stake _ addAmount _ => addAmount > 0
  | slashValidator c attAmount attLimit _ _ =>
    Covenant.AgentTea.slashValidatorRequires c.state attAmount attLimit
  | recover c _ recoverUsed _ => Covenant.AgentTea.recoverRequires c.params recoverUsed
  | revokeAgent _ _ => True
  | executeTea c _ amount _ _ attestedLimit now _ => (0 ≤ now ∧ now < 2 ^ 31)
      ∧ Covenant.RicardianTea.executeTeaRequires c.params c.state amount attestedLimit now
  | slash c attAmount attLimit confirmationCount _ _ =>
    Covenant.RicardianTea.slashRequires c.params c.state attAmount attLimit confirmationCount
  | updateSlashCheckpoint _ headerCount _ _ =>
    Covenant.RicardianTea.updateSlashCheckpointRequires headerCount
  | revokeRicardian _ _ => True

/-- The byte string the covenant method hashes. -/
def outputs (P : Prims) (code : Bytes) (ctx : Covenant.Ctx) : TeaMethod → Option Bytes
  | executeAction c counterparty amount actionHash provenanceHash attestedLimit _ _ =>
    (c.deployed code).executeAction P ctx counterparty amount actionHash provenanceHash
      attestedLimit
  | stake c addAmount _ => (c.deployed code).stake ctx addAmount
  | slashValidator c attAmount attLimit reporter _ =>
    (c.deployed code).slashValidator P ctx attAmount attLimit reporter
  | recover c newAgent recoverUsed _ => (c.deployed code).recover P ctx newAgent recoverUsed
  | revokeAgent c _ => (c.deployed code).revoke P ctx
  | executeTea c counterparty amount invoiceHash provenanceHash attestedLimit _ _ =>
    (c.deployed code).executeTea P ctx counterparty amount invoiceHash provenanceHash attestedLimit
  | slash c attAmount attLimit confirmationCount reporter _ =>
    (c.deployed code).slash P ctx attAmount attLimit confirmationCount reporter
  | updateSlashCheckpoint c headerCount newCheckpointHash _ =>
    (c.deployed code).updateSlashCheckpoint ctx headerCount newCheckpointHash
  | revokeRicardian c _ => (c.deployed code).revoke P ctx

/-- The two methods that read the locktime as the spend time. -/
def readsTime : TeaMethod → Bool
  | executeAction .. | executeTea .. => true
  | _ => false

/-- The methods that pay the identity out instead of recreating it. -/
def endsIdentity : TeaMethod → Bool
  | slashValidator .. | revokeAgent .. | slash .. | revokeRicardian .. => true
  | _ => false

/-- The context of a transaction that spends the identity. -/
def ctx (identity : ContractUtxo) (tx : Tx) (m : TeaMethod) : Covenant.Ctx where
  value := identity.value.toNat
  locktime := tx.locktime.toNat
  changeAmount := (changeAmount (m.call identity).pinned tx).toNat
  changeAddress := (m.call identity).request.hash.getD (Block.fill 20 0)

/-- The transaction spends the identity first, with a locktime in force where the method reads it,
and its outputs are what the covenant method hashes. -/
def Refines (P : Prims) (identity : ContractUtxo) (script : Bytes) (tx : Tx) (m : TeaMethod) :
    Prop :=
  (∃ i ∈ tx.inputs.head?, i.prevTxidDisplay = hexToLower identity.txidDisplay
      ∧ i.vout = identity.vout ∧ (m.readsTime = true → i.sequence < 0xffffffff))
    ∧ ∃ code ∈ Covenant.codePart script,
      m.outputs P code (m.ctx identity tx) = some (tx.outputs.flatMap printTxOut)

instance (P : Prims) (identity : ContractUtxo) (script : Bytes) (tx : Tx) (m : TeaMethod) :
    Decidable (m.Refines P identity script tx) := inferInstanceAs (Decidable (_ ∧ _))

end TeaMethod

end BonsaiChain
