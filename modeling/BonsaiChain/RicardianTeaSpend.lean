import BonsaiChain.Blockchain
import BonsaiChain.CovenantSpend
import BonsaiChain.RicardianTeaCovenant

/-!
# Calls of the RicardianTea contract

The public methods of `ricardianTea.scrypt` as calls with all their arguments. The owner moves the
checkpoint forward along block headers; a slashing needs a fraudulent attestation whose receipt is
in a block below the checkpoint. The header functions of the contract library are a parameter.
-/

namespace BonsaiChain.Covenant

/-- `Blockchain` of the contract library. -/
structure BlockchainLib where
  blockHeaderHash : BlockHeader → Block 32
  isValidBlockHeader : BlockHeader → ℤ → Bool
  txInBlock : Block 32 → BlockHeader → MerkleProof → ℕ → Bool

/-- The loop over block headers, each of which has to be valid and to follow the one before it. -/
def BlockchainLib.follow (B : BlockchainLib) (target : ℤ) :
    Block 32 → List BlockHeader → Option (Block 32)
  | expected, [] => some expected
  | expected, header :: headers =>
    if header.prevBlockHash = expected ∧ B.isValidBlockHeader header target = true then
      B.follow target (B.blockHeaderHash header) headers
    else none

namespace RicardianTea

inductive Call where
  | executeTea (agentSig counterpartySig : Bytes) (counterparty : Block 33) (amount : ℤ)
      (invoiceHash provenanceHash : Block 32) (attestedLimit : ℤ) (validatorSig : RabinVerifierSig)
  | slash (attAmount attLimit : ℤ) (attReceiptHash : Block 32) (fraudSig : RabinVerifierSig)
      (receiptTxPrefix receiptTxSuffix : Bytes) (receiptTxid : Block 32)
      (receiptBlock : BlockHeader) (receiptMerkleProof : MerkleProof)
      (confirmationHeaders : Vector BlockHeader 6) (confirmationCount : ℤ) (reporter : Block 33)
  | updateSlashCheckpoint (ownerSig : Bytes) (checkpointHeaders : Vector BlockHeader 6)
      (headerCount : ℤ) (newCheckpointHash : Block 32)
  | revoke (ownerSig : Bytes)

def attestationMsg (ricardianHash agent : Bytes) (validatorPubKey amount attestedLimit : ℤ)
    (receiptHash : Block 32) : Option Bytes := do
  let amount8 ← num2bin amount 8
  let attestedLimit8 ← num2bin attestedLimit 8
  return hexLiteral (ascii "525445415f4154544553545f5631") ++ ricardianHash ++ agent
    ++ int2bytestringMinimal validatorPubKey ++ amount8 ++ attestedLimit8 ++ receiptHash.1

section Guards

variable (P : Prims) (V : Verifiers) (B : BlockchainLib)

/-- A key signed that an amount is within a limit. -/
def Attested (this : RicardianTea) (validatorPubKey amount attestedLimit : ℤ)
    (receiptHash : Block 32) (sig : RabinVerifierSig) : Prop :=
  ∃ attestation ∈ attestationMsg this.params.ricardianHash this.params.agent validatorPubKey amount
      attestedLimit receiptHash,
    V.verifySig attestation sig validatorPubKey

instance (this : RicardianTea) (validatorPubKey amount attestedLimit : ℤ) (receiptHash : Block 32)
    (sig : RabinVerifierSig) :
    Decidable (Attested V this validatorPubKey amount attestedLimit receiptHash sig) :=
  inferInstanceAs (Decidable (∃ _ ∈ _, _))

/-- The transaction with a receipt output is in a block. -/
def InBlock (target : ℤ) (receiptHash : Block 32) (txPrefix txSuffix : Bytes) (txid : Block 32)
    (header : BlockHeader) (proof : MerkleProof) : Prop :=
  ∃ receiptOutput ∈ buildOutput (buildOpreturnScript receiptHash.1) 0,
    sha256d P (txPrefix ++ receiptOutput ++ txSuffix) = txid
      ∧ B.txInBlock txid header proof 32 = true ∧ B.isValidBlockHeader header target = true

instance (target : ℤ) (receiptHash : Block 32) (txPrefix txSuffix : Bytes) (txid : Block 32)
    (header : BlockHeader) (proof : MerkleProof) :
    Decidable (InBlock P B target receiptHash txPrefix txSuffix txid header proof) :=
  inferInstanceAs (Decidable (∃ _ ∈ _, _))

/-- The `require`s that are not about the outputs. -/
def Guards (e : Event RicardianTea Call) : Prop :=
  match e.call with
  | .executeTea agentSig counterpartySig counterparty amount invoiceHash provenanceHash
      attestedLimit validatorSig =>
    e.spend.ChecksInputZero P ∧ e.spend.LocktimeInForce
      ∧ V.checkSig e.spend agentSig e.this.params.agent
      ∧ V.checkSig e.spend counterpartySig counterparty.1
      ∧ (amount ≥ e.this.params.validatorThreshold →
        ∃ receipt ∈ e.this.receipt counterparty amount invoiceHash provenanceHash
            e.spend.ctx.locktime,
          Attested V e.this e.this.params.designatedValidatorPubkey amount attestedLimit
            (P.sha256 receipt) validatorSig)
  | .slash attAmount attLimit attReceiptHash fraudSig receiptTxPrefix receiptTxSuffix receiptTxid
      receiptBlock receiptMerkleProof confirmationHeaders confirmationCount _ =>
    Attested V e.this e.this.params.validatorRabinPubkey attAmount attLimit attReceiptHash fraudSig
      ∧ InBlock P B e.this.params.maxSlashingTarget attReceiptHash receiptTxPrefix receiptTxSuffix
        receiptTxid receiptBlock receiptMerkleProof
      ∧ ∃ tip ∈ B.follow e.this.params.maxSlashingTarget (B.blockHeaderHash receiptBlock)
          (confirmationHeaders.toList.take confirmationCount.toNat),
        tip.1 = e.this.state.slashCheckpointHash
  | .updateSlashCheckpoint ownerSig checkpointHeaders headerCount newCheckpointHash =>
    e.spend.ChecksInputZero P ∧ V.checkSig e.spend ownerSig e.this.params.owner
      ∧ ∃ checkpoint : Block 32, checkpoint.1 = e.this.state.slashCheckpointHash
        ∧ B.follow e.this.params.maxSlashingTarget checkpoint
            (checkpointHeaders.toList.take headerCount.toNat) = some newCheckpointHash
  | .revoke ownerSig => V.checkSig e.spend ownerSig e.this.params.owner

end Guards

/-- The outputs a call requires, behind its numeric `require`s. -/
def outputs (P : Prims) (e : Event RicardianTea Call) : Option Bytes :=
  match e.call with
  | .executeTea _ _ counterparty amount invoiceHash provenanceHash attestedLimit _ =>
    e.this.executeTea P e.spend.ctx counterparty amount invoiceHash provenanceHash attestedLimit
  | .slash attAmount attLimit _ _ _ _ _ _ _ _ confirmationCount reporter =>
    e.this.slash P e.spend.ctx attAmount attLimit confirmationCount reporter
  | .updateSlashCheckpoint _ _ headerCount newCheckpointHash =>
    e.this.updateSlashCheckpoint e.spend.ctx headerCount newCheckpointHash
  | .revoke _ => e.this.revoke P e.spend.ctx

/-- The contract after a call. -/
def advance (this : RicardianTea) (e : Event RicardianTea Call) : RicardianTea :=
  match e.call with
  | .executeTea _ _ _ amount _ _ _ _ =>
    let now := e.spend.ctx.locktime
    let txCount := this.state.txCount + 1
    let tier := if txCount ≥ this.params.graduationThreshold ∧ this.state.tier < 2 then 2
      else this.state.tier
    { this with
      state := ⟨txCount, spent this.params this.state amount now,
        windowStart this.params this.state now, tier, this.state.slashCheckpointHash⟩ }
  | .updateSlashCheckpoint _ _ _ newCheckpointHash =>
    { this with state := { this.state with slashCheckpointHash := newCheckpointHash.1 } }
  | _ => this

def Call.Ends : Call → Prop
  | .slash .. => True
  | .revoke _ => True
  | _ => False

instance : DecidablePred Call.Ends := fun c =>
  match c with
  | .slash .. => .isTrue trivial
  | .revoke _ => .isTrue trivial
  | .executeTea .. => .isFalse id
  | .updateSlashCheckpoint .. => .isFalse id

def next (e : Event RicardianTea Call) : Option (RicardianTea × ℤ) :=
  if e.call.Ends then none else some (e.this.advance e, (e.spend.value.toNat : ℤ))

/-- The same code and constants, maybe another state. -/
structure IsState (d this : RicardianTea) : Prop where
  code : this.code = d.code
  stateProps : this.stateProps = d.stateProps
  params : this.params = d.params

/-- The contract as its constructor sets it up. -/
def constructed (this : RicardianTea) : RicardianTea :=
  { this with state := ricardianTeaGenesisState this.params }

/-- The contract that was deployed as `d`. -/
def contract (P : Prims) (V : Verifiers) (B : BlockchainLib) (d : RicardianTea) :
    Contract RicardianTea Call where
  Holds this script :=
    d.IsState this ∧ ReadsState this.code this.stateProps
      (ricardianTeaStateValues this.constructed.state) (ricardianTeaStateValues this.state) script
  Guards := Guards P V B
  outputs := outputs P
  next := next

end RicardianTea

end BonsaiChain.Covenant
