import BonsaiChain.AgentTeaCovenant
import BonsaiChain.CovenantSpend

/-!
# Calls of the AgentTea contract

The public methods of `agentTea.scrypt` as calls with all their arguments: what each of them
requires beside the outputs, and what it leaves. `stake` and `slashValidator` are open to anybody;
`slashValidator` and `revoke` end the contract.
-/

namespace BonsaiChain.Covenant.AgentTea

inductive Call where
  | executeAction (agentSig counterpartySig : Bytes) (counterparty : Block 33) (amount : ℤ)
      (actionHash provenanceHash : Block 32) (attestedLimit : ℤ) (validatorSig : RabinVerifierSig)
  | stake (addAmount : ℤ)
  | slashValidator (validatedRicardianHash : Block 32) (validatedAgent : Block 33)
      (attAmount attLimit : ℤ) (attReceiptHash : Block 32) (fraudSig : RabinVerifierSig)
      (reporter : Block 33)
  | recover (newAgent : Block 33) (recoverUsed : Vector Bool 3)
      (recoverySigs : Vector RabinVerifierSig 3)
  | revoke (ownerSig : Bytes)

def attestationMsg (ricardianHash agent : Bytes) (validatorPubKey amount attestedLimit : ℤ)
    (receiptHash : Block 32) : Option Bytes := do
  let amount8 ← num2bin amount 8
  let attestedLimit8 ← num2bin attestedLimit 8
  return hexLiteral (ascii "41474e545f4154544553545f5631") ++ ricardianHash ++ agent
    ++ int2bytestringMinimal validatorPubKey ++ amount8 ++ attestedLimit8 ++ receiptHash.1

section Guards

variable (P : Prims) (V : Verifiers)

/-- The attestation of an amount at or above the threshold. -/
def Attested (this : AgentTea) (counterparty : Block 33) (amount : ℤ)
    (actionHash provenanceHash : Block 32) (attestedLimit now : ℤ) (sig : RabinVerifierSig) :
    Prop :=
  ∃ receipt ∈ this.receipt counterparty amount actionHash provenanceHash now,
    ∃ attestation ∈ attestationMsg this.params.ricardianHash this.agent
        this.params.designatedValidatorPubkey amount attestedLimit (P.sha256 receipt),
      V.verifySig attestation sig this.params.designatedValidatorPubkey

/-- Every slot a recovery uses has a signature of its guardian. -/
def Guarded (this : AgentTea) (newAgent : Block 33) (used : Vector Bool 3)
    (sigs : Vector RabinVerifierSig 3) : Prop :=
  ∀ i : Fin 3, used[i] = true →
    ∃ msg ∈ this.recoveryMsg newAgent, V.verifySig msg sigs[i] this.params.recoveryKeys[i]

instance (this : AgentTea) (newAgent : Block 33) (used : Vector Bool 3)
    (sigs : Vector RabinVerifierSig 3) : Decidable (Guarded V this newAgent used sigs) :=
  inferInstanceAs (Decidable (∀ _ : Fin 3, _ → ∃ _ ∈ _, _))

/-- The `require`s that are not about the outputs. -/
def Guards (e : Event AgentTea Call) : Prop :=
  match e.call with
  | .executeAction agentSig counterpartySig counterparty amount actionHash provenanceHash
      attestedLimit validatorSig =>
    e.spend.ChecksInputZero P ∧ e.spend.LocktimeInForce
      ∧ V.checkSig e.spend agentSig e.this.agent
      ∧ V.checkSig e.spend counterpartySig counterparty.1
      ∧ (amount ≥ e.this.params.validatorThreshold →
        Attested P V e.this counterparty amount actionHash provenanceHash attestedLimit
          e.spend.ctx.locktime validatorSig)
  | .stake _ => e.spend.ChecksInputZero P
  | .slashValidator validatedRicardianHash validatedAgent attAmount attLimit attReceiptHash fraudSig
      _ =>
    ∃ attestation ∈ attestationMsg validatedRicardianHash.1 validatedAgent.1
        e.this.params.validatorRabinPubkey attAmount attLimit attReceiptHash,
      V.verifySig attestation fraudSig e.this.params.validatorRabinPubkey
  | .recover newAgent recoverUsed recoverySigs =>
    e.spend.ChecksInputZero P ∧ Guarded V e.this newAgent recoverUsed recoverySigs
  | .revoke ownerSig => V.checkSig e.spend ownerSig e.this.params.owner

end Guards

/-- The outputs a call requires, behind its numeric `require`s. -/
def outputs (P : Prims) (e : Event AgentTea Call) : Option Bytes :=
  match e.call with
  | .executeAction _ _ counterparty amount actionHash provenanceHash attestedLimit _ =>
    e.this.executeAction P e.spend.ctx counterparty amount actionHash provenanceHash attestedLimit
  | .stake addAmount => e.this.stake e.spend.ctx addAmount
  | .slashValidator _ _ attAmount attLimit _ _ reporter =>
    e.this.slashValidator P e.spend.ctx attAmount attLimit reporter
  | .recover newAgent recoverUsed _ => e.this.recover P e.spend.ctx newAgent recoverUsed
  | .revoke _ => e.this.revoke P e.spend.ctx

/-- The contract after a call. -/
def advance (this : AgentTea) (e : Event AgentTea Call) : AgentTea :=
  match e.call with
  | .executeAction _ _ _ amount _ _ _ _ => this.executed amount e.spend.ctx.locktime
  | .recover newAgent _ _ => this.recovered newAgent
  | _ => this

/-- What a call adds to the deposit. -/
def staked (e : Event AgentTea Call) : ℤ :=
  match e.call with
  | .stake addAmount => addAmount
  | _ => 0

def Call.Ends : Call → Prop
  | .slashValidator .. => True
  | .revoke _ => True
  | _ => False

instance : DecidablePred Call.Ends := fun c =>
  match c with
  | .slashValidator .. => .isTrue trivial
  | .revoke _ => .isTrue trivial
  | .executeAction .. => .isFalse id
  | .stake _ => .isFalse id
  | .recover .. => .isFalse id

def next (e : Event AgentTea Call) : Option (AgentTea × ℤ) :=
  if e.call.Ends then none else some (e.this.advance e, (e.spend.value.toNat : ℤ) + staked e)

/-- The same code and constants, maybe another state. -/
structure IsState (d this : AgentTea) : Prop where
  code : this.code = d.code
  stateProps : this.stateProps = d.stateProps
  params : this.params = d.params

/-- The contract as its constructor sets it up. -/
def constructed (this : AgentTea) : AgentTea :=
  { this with agent := this.params.agent, state := agentTeaGenesisState }

/-- The contract that was deployed as `d`. -/
def contract (P : Prims) (V : Verifiers) (d : AgentTea) : Contract AgentTea Call where
  Holds this script :=
    d.IsState this ∧ ReadsState this.code this.stateProps this.constructed.stateValues
      this.stateValues script
  Guards := Guards P V
  outputs := outputs P
  next := next

end BonsaiChain.Covenant.AgentTea
