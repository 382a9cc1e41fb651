import BonsaiChain.AgentTea
import BonsaiChain.Covenant

/-!
# The AgentTea covenant

The byte string each method of `agentTea.scrypt` hashes, behind the method's numeric `require`s. The
signature `require`s and `checkInputZero` do not enter it.
-/

namespace BonsaiChain.Covenant

/-- A deployed contract. The agent key is state: `params.agent` is its value at deployment. -/
structure AgentTea where
  code : Bytes
  stateProps : List ScryptParam
  params : AgentTeaParams
  agent : Bytes
  state : AgentTeaState

namespace AgentTea

section Requires

variable (p : AgentTeaParams) (s : AgentTeaState)

def windowStart (now : ℤ) : ℤ :=
  if now - s.windowStart ≥ p.windowDuration then now else s.windowStart

def spent (amount now : ℤ) : ℤ :=
  (if now - s.windowStart ≥ p.windowDuration then 0 else s.spentInWindow) + amount

def executeActionRequires (amount attestedLimit now : ℤ) : Prop :=
  amount > 0 ∧ amount ≤ p.perTxLimit ∧ spent p s amount now ≤ p.dailyLimit
    ∧ (amount ≥ p.validatorThreshold → amount ≤ attestedLimit)

instance (amount attestedLimit now : ℤ) :
    Decidable (executeActionRequires p s amount attestedLimit now) :=
  inferInstanceAs (Decidable (_ ∧ _ ∧ _ ∧ _))

def slashValidatorRequires (attAmount attLimit : ℤ) : Prop := s.tier = 2 ∧ attAmount > attLimit

instance (attAmount attLimit : ℤ) : Decidable (slashValidatorRequires s attAmount attLimit) :=
  inferInstanceAs (Decidable (_ ∧ _))

def recoverRequires (recoverUsed : Vector Bool 3) : Prop :=
  ((recoverUsed.toList.count true : ℕ) : ℤ) ≥ p.recoveryThreshold

instance (recoverUsed : Vector Bool 3) : Decidable (recoverRequires p recoverUsed) :=
  inferInstanceAs (Decidable (_ ≥ _))

end Requires

section Methods

variable (P : Prims) (this : AgentTea) (ctx : Ctx)

def stateValues : List ScryptArg := agentTeaStateValues this.agent this.state

def receipt (counterparty : Block 33) (amount : ℤ) (actionHash provenanceHash : Block 32)
    (now : ℤ) :
    Option Bytes := do
  let amount8 ← num2bin amount 8
  let txCount8 ← num2bin this.state.txCount 8
  let now4 ← num2bin now 4
  return this.params.ricardianHash ++ this.agent ++ counterparty.1 ++ amount8 ++ actionHash.1
    ++ provenanceHash.1 ++ txCount8 ++ now4

def stateAndReceiptOutputs (receiptHash : Block 32) : Option Bytes := do
  let stateOutput ← buildStateOutput this.code this.stateProps this.stateValues ctx.value
  let receiptOutput ← buildOutput (buildOpreturnScript receiptHash.1) 0
  withChange ctx (stateOutput ++ receiptOutput)

/-- The contract after an action. -/
def executed (amount now : ℤ) : AgentTea :=
  let txCount := this.state.txCount + 1
  let tier := if txCount ≥ this.params.graduationThreshold ∧ this.state.tier < 2 then 2
    else this.state.tier
  { this with
    state := ⟨txCount, spent this.params this.state amount now,
      windowStart this.params this.state now, tier, this.state.recoveryCount⟩ }

def executeAction (counterparty : Block 33) (amount : ℤ) (actionHash provenanceHash : Block 32)
    (attestedLimit : ℤ) : Option Bytes := do
  let now := ctx.locktime
  require (executeActionRequires this.params this.state amount attestedLimit now)
  let receipt ← this.receipt counterparty amount actionHash provenanceHash now
  stateAndReceiptOutputs (this.executed amount now) ctx (P.sha256 receipt)

def stake (addAmount : ℤ) : Option Bytes := do
  require (addAmount > 0)
  let stateOutput ← buildStateOutput this.code this.stateProps this.stateValues
    (ctx.value + addAmount)
  withChange ctx stateOutput

def slashValidator (attAmount attLimit : ℤ) (reporter : Block 33) : Option Bytes := do
  require (slashValidatorRequires this.state attAmount attLimit)
  let total := ctx.value
  let bounty := total.tdiv 2
  let burn := total - bounty
  let bountyOutput ← buildOutput (buildPublicKeyHashScript (P.hash160 reporter.1)) bounty
  let burnOutput ← buildOutput (buildOpreturnScript (hexLiteral (ascii "534c415348454400"))) burn
  withChange ctx (bountyOutput ++ burnOutput)

def recoveryMsg (newAgent : Block 33) : Option Bytes := do
  let recoveryCount8 ← num2bin this.state.recoveryCount 8
  return hexLiteral (ascii "41474e545f5245434f5645525f5631") ++ this.params.ricardianHash
    ++ newAgent.1 ++ recoveryCount8

/-- The contract after a recovery. -/
def recovered (newAgent : Block 33) : AgentTea :=
  { this with
    agent := newAgent.1
    state := { this.state with recoveryCount := this.state.recoveryCount + 1 } }

/-- The receipt of a recovery: the signed message and the action count. -/
def recoveryReceipt (newAgent : Block 33) : Option Bytes := do
  let msg ← this.recoveryMsg newAgent
  let txCount8 ← num2bin this.state.txCount 8
  return msg ++ txCount8

def recover (newAgent : Block 33) (recoverUsed : Vector Bool 3) : Option Bytes := do
  require (recoverRequires this.params recoverUsed)
  let receipt ← this.recoveryReceipt newAgent
  stateAndReceiptOutputs (this.recovered newAgent) ctx (P.sha256 receipt)

def revoke : Option Bytes := do
  let payout ← buildOutput (buildPublicKeyHashScript (P.hash160 this.params.owner)) ctx.value
  withChange ctx payout

end Methods

end AgentTea

end BonsaiChain.Covenant
