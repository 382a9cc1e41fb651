import BonsaiChain.Covenant
import BonsaiChain.RicardianTea

/-!
# The RicardianTea covenant

The byte string each method of `ricardianTea.scrypt` hashes, behind the method's numeric `require`s.
The signature and block header `require`s and `checkInputZero` do not enter it.
-/

namespace BonsaiChain.Covenant

structure RicardianTea where
  code : Bytes
  stateProps : List ScryptParam
  params : RicardianTeaParams
  state : RicardianTeaState

namespace RicardianTea

section Requires

variable (p : RicardianTeaParams) (s : RicardianTeaState)

def windowStart (now : ℤ) : ℤ :=
  if now - s.windowStart ≥ p.windowDuration then now else s.windowStart

def spent (amount now : ℤ) : ℤ :=
  (if now - s.windowStart ≥ p.windowDuration then 0 else s.spentInWindow) + amount

def executeTeaRequires (amount attestedLimit now : ℤ) : Prop :=
  amount > 0 ∧ amount ≤ p.perTxLimit ∧ spent p s amount now ≤ p.dailyLimit
    ∧ (amount ≥ p.validatorThreshold → amount ≤ attestedLimit)

instance (amount attestedLimit now : ℤ) :
    Decidable (executeTeaRequires p s amount attestedLimit now) :=
  inferInstanceAs (Decidable (_ ∧ _ ∧ _ ∧ _))

def slashRequires (attAmount attLimit confirmationCount : ℤ) : Prop :=
  s.tier = 2 ∧ attAmount > attLimit ∧ confirmationCount ≥ p.minSlashConfirmations
    ∧ confirmationCount ≤ 6

instance (attAmount attLimit confirmationCount : ℤ) :
    Decidable (slashRequires p s attAmount attLimit confirmationCount) :=
  inferInstanceAs (Decidable (_ ∧ _ ∧ _ ∧ _))

def updateSlashCheckpointRequires (headerCount : ℤ) : Prop := headerCount > 0 ∧ headerCount ≤ 6

instance (headerCount : ℤ) : Decidable (updateSlashCheckpointRequires headerCount) :=
  inferInstanceAs (Decidable (_ ∧ _))

end Requires

section Methods

variable (P : Prims) (this : RicardianTea) (ctx : Ctx)

def receipt (counterparty : Block 33) (amount : ℤ) (invoiceHash provenanceHash : Block 32)
    (now : ℤ) : Option Bytes := do
  let amount8 ← num2bin amount 8
  let txCount8 ← num2bin this.state.txCount 8
  let now4 ← num2bin now 4
  return this.params.ricardianHash ++ this.params.agent ++ counterparty.1 ++ amount8
    ++ invoiceHash.1 ++ provenanceHash.1 ++ txCount8 ++ now4

def executeTea (counterparty : Block 33) (amount : ℤ) (invoiceHash provenanceHash : Block 32)
    (attestedLimit : ℤ) : Option Bytes := do
  let now := ctx.locktime
  require (executeTeaRequires this.params this.state amount attestedLimit now)
  let receipt ← this.receipt counterparty amount invoiceHash provenanceHash now
  let txCount := this.state.txCount + 1
  let tier := if txCount ≥ this.params.graduationThreshold ∧ this.state.tier < 2 then 2
    else this.state.tier
  let state : RicardianTeaState := ⟨txCount, spent this.params this.state amount now,
    windowStart this.params this.state now, tier, this.state.slashCheckpointHash⟩
  let stateOutput ← buildStateOutput this.code this.stateProps (ricardianTeaStateValues state)
    ctx.value
  let paymentOutput ← buildOutput (buildPublicKeyHashScript (P.hash160 counterparty.1)) amount
  let receiptOutput ← buildOutput (buildOpreturnScript (P.sha256 receipt).1) 0
  withChange ctx (stateOutput ++ paymentOutput ++ receiptOutput)

def slash (attAmount attLimit confirmationCount : ℤ) (reporter : Block 33) : Option Bytes := do
  require (slashRequires this.params this.state attAmount attLimit confirmationCount)
  let bounty ← buildOutput (buildPublicKeyHashScript (P.hash160 reporter.1)) ctx.value
  withChange ctx bounty

def updateSlashCheckpoint (headerCount : ℤ) (newCheckpointHash : Block 32) : Option Bytes := do
  require (updateSlashCheckpointRequires headerCount)
  let state := { this.state with slashCheckpointHash := newCheckpointHash.1 }
  let stateOutput ← buildStateOutput this.code this.stateProps (ricardianTeaStateValues state)
    ctx.value
  withChange ctx stateOutput

def revoke : Option Bytes := do
  let payout ← buildOutput (buildPublicKeyHashScript (P.hash160 this.params.owner)) ctx.value
  withChange ctx payout

end Methods

end RicardianTea

end BonsaiChain.Covenant
