import BonsaiChain.Proofs.BuilderCall
import BonsaiChain.Proofs.Covenant
import BonsaiChain.TeaMethod

/-!
# The AgentTea and RicardianTea builders refine their covenants

Each builder writes the pinned outputs of its covenant method, in the covenant's order and with the
covenant's next state and receipt, and settles the change behind them.
-/

namespace BonsaiChain

open Lib
open Covenant (codePart withChange)

section Outputs

variable {code : Bytes} {artifact : ScryptArtifact} {ctor values : List ScryptArg} {script : Bytes}

/-- The state output of a reconstructed script. -/
theorem buildStateOutput_reconstruct (hstateful : artifact.stateful = true)
    (hcode : reconstructCode artifact ctor = .ok code)
    (h : reconstructLockingScript artifact ctor values false = .ok script) {amount : ℤ}
    {v : UInt64} (hv : (v.toNat : ℤ) = amount) :
    Covenant.buildStateOutput code artifact.stateProps values amount
      = some (printTxOut ⟨v, script⟩) := by
  have hscript := Covenant.getStateScript_eq_some hstateful hcode h
  simp only [Covenant.buildStateOutput, hscript, ← hv, Covenant.buildOutput_toNat,
    Option.bind_eq_bind, Option.bind_some]

theorem buildOutput_receipt (hash : Block 32) :
    Covenant.buildOutput (Covenant.buildOpreturnScript hash.1) 0
      = some (printTxOut ⟨0, receiptScript hash⟩) := by
  have h := Covenant.buildOutput_toNat (receiptScript hash) 0
  rw [UInt64.toNat_zero, Nat.cast_zero] at h
  rw [Covenant.buildOpreturnScript_hash, h]

theorem buildOutput_p2pkh (address : Block 20) {amount : ℤ} {v : UInt64}
    (hv : (v.toNat : ℤ) = amount) :
    Covenant.buildOutput (Covenant.buildPublicKeyHashScript address) amount
      = some (printTxOut ⟨v, buildP2pkhScript address⟩) := by
  rw [← hv]
  exact Covenant.buildOutput_toNat (buildP2pkhScript address) v

theorem recoverTag_eq :
    Covenant.hexLiteral (ascii "41474e545f5245434f5645525f5631") = recoverTag := by
  decide +kernel

theorem buildOpreturnScript_slash :
    Covenant.buildOpreturnScript (Covenant.hexLiteral (ascii "534c415348454400"))
      = slashedScript := by
  decide +kernel

/-- A time of four signed bytes is the locktime it is cast to. -/
theorem toNat_u32OfInt {now : ℤ} (h0 : 0 ≤ now) (hlt : now < 2 ^ 31) :
    ((u32OfInt now).toNat : ℤ) = now := by
  rw [u32OfInt, UInt32.toNat_ofNat']
  omega

end Outputs

section AgentTea

variable {P : Prims} {c : AgentTea} {code : Bytes} {ctx : Covenant.Ctx} {identity : ContractUtxo}

theorem agentTeaReceipt_of_ok {counterparty : Block 33} {amount now : ℤ}
    {actionHash provenanceHash : Block 32} {pre : Bytes}
    (h : agentTeaReceiptPreimage c counterparty amount actionHash provenanceHash now = .ok pre) :
    (c.deployed code).receipt counterparty amount actionHash provenanceHash now = some pre := by
  simp only [agentTeaReceiptPreimage, bind_eq_ok, guard_eq_ok, pure_eq_ok,
    Covenant.sized_eight, Covenant.sized_four] at h
  obtain ⟨-, amount8, hamount, txCount8, htx, now4, hnow, rfl⟩ := h
  simp [Covenant.AgentTea.receipt, AgentTea.deployed, hamount, htx, hnow]

theorem agentTeaRecovery_of_ok {newAgent : Block 33} {pre : Bytes}
    (h : agentTeaRecoverPreimage c newAgent = .ok pre) :
    (c.deployed code).recoveryReceipt newAgent = some pre := by
  simp only [agentTeaRecoverPreimage, bind_eq_ok, guard_eq_ok, pure_eq_ok,
    Covenant.sized_eight] at h
  obtain ⟨-, recoveryCount8, hrc, txCount8, htx, rfl⟩ := h
  simp [Covenant.AgentTea.recoveryReceipt, Covenant.AgentTea.recoveryMsg, AgentTea.deployed, hrc,
    htx, recoverTag_eq]

theorem executeAction_eq {counterparty : Block 33} {amount attestedLimit now : ℤ}
    {actionHash provenanceHash : Block 32} {pre : Bytes} (hlock : ctx.locktime = now)
    (hguards : Covenant.AgentTea.executeActionRequires c.params c.state amount attestedLimit now)
    (h : agentTeaReceiptPreimage c counterparty amount actionHash provenanceHash now = .ok pre) :
    (c.deployed code).executeAction P ctx counterparty amount actionHash provenanceHash
        attestedLimit
      = ((c.deployed code).executed amount now).stateAndReceiptOutputs ctx (P.sha256 pre) := by
  have hguards' : Covenant.AgentTea.executeActionRequires (c.deployed code).params
      (c.deployed code).state amount attestedLimit now := hguards
  simp only [Covenant.AgentTea.executeAction, hlock, Covenant.require, hguards', if_true,
    agentTeaReceipt_of_ok h, Option.bind_eq_bind, Option.bind_some]

theorem recover_eq {newAgent : Block 33} {recoverUsed : Vector Bool 3} {pre : Bytes}
    (hguards : Covenant.AgentTea.recoverRequires c.params recoverUsed)
    (h : agentTeaRecoverPreimage c newAgent = .ok pre) :
    (c.deployed code).recover P ctx newAgent recoverUsed
      = ((c.deployed code).recovered newAgent).stateAndReceiptOutputs ctx (P.sha256 pre) := by
  have hguards' : Covenant.AgentTea.recoverRequires (c.deployed code).params recoverUsed := hguards
  simp only [Covenant.AgentTea.recover, Covenant.require, hguards', if_true,
    agentTeaRecovery_of_ok h, Option.bind_eq_bind, Option.bind_some]

theorem agentTea_stateAndReceipt {agent : Bytes} {s : AgentTeaState} {script : Bytes}
    (hstateful : c.artifact.stateful = true)
    (hcode : reconstructCode c.artifact (agentTeaCtor c.params) = .ok code)
    (hscript : reconstructLockingScript c.artifact (agentTeaCtor c.params)
      (agentTeaStateValues agent s) false = .ok script)
    (hvalue : (identity.value.toNat : ℤ) = ctx.value) (receiptHash : Block 32) :
    Covenant.AgentTea.stateAndReceiptOutputs
        { c.deployed code with agent := agent, state := s } ctx receiptHash
      = withChange ctx (printTxOut ⟨identity.value, script⟩
        ++ printTxOut ⟨0, receiptScript receiptHash⟩) := by
  have hstate := buildStateOutput_reconstruct hstateful hcode hscript hvalue
  simp only [Covenant.AgentTea.stateAndReceiptOutputs, Covenant.AgentTea.stateValues,
    AgentTea.deployed, hstate, buildOutput_receipt, Option.bind_eq_bind, Option.bind_some]

end AgentTea

section RicardianTea

variable {P : Prims} {c : RicardianTea} {code : Bytes} {ctx : Covenant.Ctx}

theorem ricardianTeaReceipt_of_ok {counterparty : Block 33} {amount now : ℤ}
    {invoiceHash provenanceHash : Block 32} {pre : Bytes}
    (h : ricardianTeaReceiptPreimage c counterparty amount invoiceHash provenanceHash now
      = .ok pre) :
    (c.deployed code).receipt counterparty amount invoiceHash provenanceHash now = some pre := by
  simp only [ricardianTeaReceiptPreimage, bind_eq_ok, guard_eq_ok, pure_eq_ok,
    Covenant.sized_eight, Covenant.sized_four] at h
  obtain ⟨-, amount8, hamount, txCount8, htx, now4, hnow, rfl⟩ := h
  simp [Covenant.RicardianTea.receipt, RicardianTea.deployed, hamount, htx, hnow]

theorem executeTea_eq {counterparty : Block 33} {amount attestedLimit now : ℤ}
    {invoiceHash provenanceHash : Block 32} {pre : Bytes} (hlock : ctx.locktime = now)
    (hguards : Covenant.RicardianTea.executeTeaRequires c.params c.state amount attestedLimit now)
    (h : ricardianTeaReceiptPreimage c counterparty amount invoiceHash provenanceHash now
      = .ok pre) :
    (c.deployed code).executeTea P ctx counterparty amount invoiceHash provenanceHash attestedLimit
      = (do
        let stateOutput ← Covenant.buildStateOutput code c.artifact.stateProps
          (ricardianTeaStateValues (ricardianTeaApplyAction c amount now)) ctx.value
        let paymentOutput ← Covenant.buildOutput
          (Covenant.buildPublicKeyHashScript (P.hash160 counterparty.1)) amount
        let receiptOutput ← Covenant.buildOutput
          (Covenant.buildOpreturnScript (P.sha256 pre).1) 0
        withChange ctx (stateOutput ++ paymentOutput ++ receiptOutput)) := by
  have hguards' : Covenant.RicardianTea.executeTeaRequires (c.deployed code).params
      (c.deployed code).state amount attestedLimit now := hguards
  simp only [Covenant.RicardianTea.executeTea, hlock, Covenant.require, hguards', if_true,
    ricardianTeaReceipt_of_ok h, Option.bind_eq_bind, Option.bind_some]
  rfl

theorem slash_eq {attAmount attLimit confirmationCount : ℤ} {reporter : Block 33}
    (hguards : Covenant.RicardianTea.slashRequires c.params c.state attAmount attLimit
      confirmationCount) :
    (c.deployed code).slash P ctx attAmount attLimit confirmationCount reporter = (do
      let bounty ← Covenant.buildOutput
        (Covenant.buildPublicKeyHashScript (P.hash160 reporter.1)) ctx.value
      withChange ctx bounty) := by
  have hguards' : Covenant.RicardianTea.slashRequires (c.deployed code).params
      (c.deployed code).state attAmount attLimit confirmationCount := hguards
  rw [Covenant.RicardianTea.slash, Covenant.require, if_pos hguards']
  rfl

end RicardianTea

namespace TeaMethod

variable {P : Prims} {identity : ContractUtxo} {m : TeaMethod} {tx : Tx} {code : Bytes}

theorem ctx_value : (m.ctx identity tx).value = identity.value.toNat := rfl

/-- A built transaction whose pinned outputs the covenant builds before its change is the one the
covenant requires. -/
theorem refines_of_built {sequence locktime : UInt32} {funding : List FundingUtxo}
    {pinned : List TxOut} {seed : ℤ} {change : UInt64} {script : Bytes}
    (hb : Built P identity sequence funding pinned (m.call identity).request seed locktime tx
      change)
    (hlen : pinned.length = (m.call identity).pinned)
    (hseq : m.readsTime = true → sequence < 0xffffffff) (hpart : codePart script = some code)
    (hout : m.outputs P code (m.ctx identity tx)
      = withChange (m.ctx identity tx) (pinned.flatMap printTxOut)) :
    m.Refines P identity script tx := by
  refine ⟨⟨contractInput identity sequence, ?_, rfl, rfl, hseq⟩, code, hpart, ?_⟩
  · rw [hb.tx_eq]
    rfl
  · have hamount : (m.ctx identity tx).changeAmount = change.toNat := by
      show ((changeAmount (m.call identity).pinned tx).toNat : ℤ) = change.toNat
      rw [hb.changeAmount_eq hlen]
    have haddr : ∀ h, (m.call identity).request.hash = some h →
        (m.ctx identity tx).changeAddress = h := by
      intro h hreq
      show (m.call identity).request.hash.getD _ = h
      rw [hreq]
      rfl
    rw [hout, Covenant.withChange_outputs hamount hb.unrequested haddr, hb.tx_eq]
    simp

/-- The locktime of a built transaction is the time the covenant reads. -/
theorem locktime_of_built {sequence : UInt32} {funding : List FundingUtxo} {pinned : List TxOut}
    {req : ChangeRequest} {seed now : ℤ} {change : UInt64}
    (hb : Built P identity sequence funding pinned req seed (u32OfInt now) tx change)
    (hnow : 0 ≤ now ∧ now < 2 ^ 31) : (m.ctx identity tx).locktime = now := by
  show (tx.locktime.toNat : ℤ) = now
  rw [hb.tx_eq]
  exact toNat_u32OfInt hnow.1 hnow.2

section Methods

variable {opts : AgentTeaBuilderOpts} {ropts : RicardianTeaBuilderOpts} {script : Bytes}

theorem executeAction_refines {c : AgentTea} {counterparty : Block 33} {amount : ℤ}
    {actionHash provenanceHash : Block 32} {attestedLimit now : ℤ}
    (hstateful : c.artifact.stateful = true)
    (hcode : reconstructCode c.artifact (agentTeaCtor c.params) = .ok code)
    (hpart : codePart script = some code)
    (hreq : (executeAction c counterparty amount actionHash provenanceHash attestedLimit now
      opts).requires)
    (hok : buildAgentTeaAction P c identity counterparty amount actionHash provenanceHash now opts
      txBuilderInit = .ok tx) :
    (executeAction c counterparty amount actionHash provenanceHash attestedLimit now opts).Refines P
      identity script tx := by
  obtain ⟨hnow, hguards⟩ := hreq
  obtain ⟨pre, next, change, hpre, hnext, hb⟩ := buildAgentTeaAction_eq_ok hok
  refine refines_of_built hb rfl (fun _ => by decide) hpart ?_
  refine (executeAction_eq (locktime_of_built hb hnow) hguards hpre).trans
    ((agentTea_stateAndReceipt hstateful hcode hnext ctx_value.symm _).trans ?_)
  simp

theorem stake_refines {c : AgentTea} {addAmount : ℤ} (hstateful : c.artifact.stateful = true)
    (hcode : reconstructCode c.artifact (agentTeaCtor c.params) = .ok code)
    (hpart : codePart script = some code) (hreq : (stake c addAmount opts).requires)
    (hok : buildAgentTeaStake P c identity addAmount opts txBuilderInit = .ok tx) :
    (stake c addAmount opts).Refines P identity script tx := by
  obtain ⟨balance, next, change, hbalance, hnext, hb⟩ := buildAgentTeaStake_eq_ok hok
  refine refines_of_built hb rfl nofun hpart ?_
  have hstate := buildStateOutput_reconstruct hstateful hcode hnext hbalance
  have hpos : addAmount > 0 := hreq
  simp only [outputs, Covenant.AgentTea.stake, Covenant.AgentTea.stateValues, AgentTea.deployed,
    ctx, Covenant.require, hpos, if_true, Option.bind_eq_bind, Option.bind_some]
  rw [show agentTeaStateValues c.params.agent c.state
    = agentTeaStateValues (Option.getD none c.params.agent) c.state from rfl, hstate]
  simp

theorem slashValidator_refines {c : AgentTea} {attAmount attLimit : ℤ} {reporter : Block 33}
    (hpart : codePart script = some code)
    (hreq : (slashValidator c attAmount attLimit reporter opts).requires)
    (hok : buildAgentTeaSlashValidator P identity reporter opts txBuilderInit = .ok tx) :
    (slashValidator c attAmount attLimit reporter opts).Refines P identity script tx := by
  obtain ⟨change, hb⟩ := buildAgentTeaSlashValidator_eq_ok hok
  refine refines_of_built hb rfl nofun hpart ?_
  have hbounty : ((identity.value / 2).toNat : ℤ) = (identity.value.toNat : ℤ).tdiv 2 := by
    rw [UInt64.toNat_div]
    rfl
  have hburn : ((identity.value - identity.value / 2).toNat : ℤ)
      = identity.value.toNat - (identity.value.toNat : ℤ).tdiv 2 := by
    have := BuilderCall.bounty_add_burn identity.value
    rw [← hbounty]
    omega
  have hguards : Covenant.AgentTea.slashValidatorRequires c.state attAmount attLimit := hreq
  simp only [outputs, Covenant.AgentTea.slashValidator, AgentTea.deployed, ctx, Covenant.require,
    hguards, if_true, buildOutput_p2pkh _ hbounty, buildOpreturnScript_slash, ← hburn,
    Covenant.buildOutput_toNat, Option.bind_eq_bind, Option.bind_some]
  simp

theorem recover_refines {c : AgentTea} {newAgent : Block 33} {recoverUsed : Vector Bool 3}
    (hstateful : c.artifact.stateful = true)
    (hcode : reconstructCode c.artifact (agentTeaCtor c.params) = .ok code)
    (hpart : codePart script = some code) (hreq : (recover c newAgent recoverUsed opts).requires)
    (hok : buildAgentTeaRecover P c identity newAgent opts txBuilderInit = .ok tx) :
    (recover c newAgent recoverUsed opts).Refines P identity script tx := by
  obtain ⟨pre, next, change, hpre, hnext, hb⟩ := buildAgentTeaRecover_eq_ok hok
  refine refines_of_built hb rfl nofun hpart ?_
  refine (recover_eq hreq hpre).trans
    ((agentTea_stateAndReceipt hstateful hcode hnext ctx_value.symm _).trans ?_)
  simp

theorem executeTea_refines {c : RicardianTea} {counterparty : Block 33} {amount : ℤ}
    {invoiceHash provenanceHash : Block 32} {attestedLimit now : ℤ}
    (hstateful : c.artifact.stateful = true)
    (hcode : reconstructCode c.artifact (ricardianTeaCtor c.params) = .ok code)
    (hpart : codePart script = some code)
    (hreq : (executeTea c counterparty amount invoiceHash provenanceHash attestedLimit now
      ropts).requires)
    (hok : buildRicardianTeaExecute P c identity counterparty amount invoiceHash provenanceHash now
      ropts txBuilderInit = .ok tx) :
    (executeTea c counterparty amount invoiceHash provenanceHash attestedLimit now ropts).Refines P
      identity script tx := by
  obtain ⟨hnow, hguards⟩ := hreq
  obtain ⟨pre, next, amountSats, change, hpre, hnext, hamount, hb⟩ :=
    buildRicardianTeaExecute_eq_ok hok
  refine refines_of_built hb rfl (fun _ => by decide) hpart ?_
  refine (executeTea_eq (locktime_of_built hb hnow) hguards hpre).trans ?_
  have hstate : Covenant.buildStateOutput code c.artifact.stateProps
      (ricardianTeaStateValues (ricardianTeaApplyAction c amount now)) identity.value.toNat
      = some (printTxOut ⟨identity.value, next⟩) :=
    buildStateOutput_reconstruct hstateful hcode hnext rfl
  rw [ctx_value, hstate, buildOutput_p2pkh _ hamount, buildOutput_receipt]
  simp

theorem updateSlashCheckpoint_refines {c : RicardianTea} {headerCount : ℤ}
    {newCheckpointHash : Block 32} (hstateful : c.artifact.stateful = true)
    (hcode : reconstructCode c.artifact (ricardianTeaCtor c.params) = .ok code)
    (hpart : codePart script = some code)
    (hreq : (updateSlashCheckpoint c headerCount newCheckpointHash ropts).requires)
    (hok : buildRicardianTeaCheckpoint P c identity newCheckpointHash ropts txBuilderInit
      = .ok tx) :
    (updateSlashCheckpoint c headerCount newCheckpointHash ropts).Refines P identity script tx := by
  obtain ⟨next, change, hnext, hb⟩ := buildRicardianTeaCheckpoint_eq_ok hok
  refine refines_of_built hb rfl nofun hpart ?_
  have hstate := buildStateOutput_reconstruct (v := identity.value) hstateful hcode hnext rfl
  have hguards : Covenant.RicardianTea.updateSlashCheckpointRequires headerCount := hreq
  simp only [outputs, Covenant.RicardianTea.updateSlashCheckpoint, RicardianTea.deployed, ctx,
    Covenant.require, hguards, if_true, hstate, Option.bind_eq_bind, Option.bind_some]
  simp

theorem payout_refines {payee : Block 20} {change : UInt64} {seed : ℤ}
    {funding : List FundingUtxo}
    (hb : Built P identity 0xffffffff funding [⟨identity.value, buildP2pkhScript payee⟩]
      (m.call identity).request seed 0 tx change)
    (hlen : (m.call identity).pinned = 1) (htime : m.readsTime = false)
    (hpart : codePart script = some code)
    (hout : m.outputs P code (m.ctx identity tx) = (do
      let payout ← Covenant.buildOutput (Covenant.buildPublicKeyHashScript payee)
        (m.ctx identity tx).value
      withChange (m.ctx identity tx) payout)) :
    m.Refines P identity script tx := by
  refine refines_of_built hb hlen.symm (by simp [htime]) hpart ?_
  rw [hout, ctx_value, buildOutput_p2pkh payee rfl]
  simp

/-- On a deployed AgentTea whose state section carries the agent key of the parameters, and on a
deployed RicardianTea, a successful builder call whose arguments pass the covenant method's numeric
`require`s builds the transaction the method requires. -/
theorem refines_covenant {isGenesis : Bool} {script : Bytes}
    (hstateful : m.artifact.stateful = true)
    (honChain : m.onChain isGenesis = .ok script) (hreq : m.requires)
    (hok : (m.call identity).build P = .ok tx) : m.Refines P identity script tx := by
  cases m with
  | executeAction c counterparty amount actionHash provenanceHash attestedLimit now opts =>
    obtain ⟨code, hcode, hpart⟩ := Covenant.codePart_reconstruct hstateful honChain
    exact executeAction_refines hstateful hcode hpart hreq hok
  | stake c addAmount opts =>
    obtain ⟨code, hcode, hpart⟩ := Covenant.codePart_reconstruct hstateful honChain
    exact stake_refines hstateful hcode hpart hreq hok
  | slashValidator c attAmount attLimit reporter opts =>
    obtain ⟨code, -, hpart⟩ := Covenant.codePart_reconstruct hstateful honChain
    exact slashValidator_refines hpart hreq hok
  | recover c newAgent recoverUsed opts =>
    obtain ⟨code, hcode, hpart⟩ := Covenant.codePart_reconstruct hstateful honChain
    exact recover_refines hstateful hcode hpart hreq hok
  | revokeAgent c opts =>
    obtain ⟨code, -, hpart⟩ := Covenant.codePart_reconstruct hstateful honChain
    obtain ⟨change, -, hb⟩ := buildAgentTeaRevoke_eq_ok hok
    refine payout_refines hb rfl rfl hpart ?_
    simp only [outputs, Covenant.AgentTea.revoke, AgentTea.deployed]
  | executeTea c counterparty amount invoiceHash provenanceHash attestedLimit now opts =>
    obtain ⟨code, hcode, hpart⟩ := Covenant.codePart_reconstruct hstateful honChain
    exact executeTea_refines hstateful hcode hpart hreq hok
  | slash c attAmount attLimit confirmationCount reporter opts =>
    obtain ⟨code, -, hpart⟩ := Covenant.codePart_reconstruct hstateful honChain
    obtain ⟨change, hb⟩ := buildPayoutToPubkey_eq_ok hok
    exact payout_refines hb rfl rfl hpart (slash_eq hreq)
  | updateSlashCheckpoint c headerCount newCheckpointHash opts =>
    obtain ⟨code, hcode, hpart⟩ := Covenant.codePart_reconstruct hstateful honChain
    exact updateSlashCheckpoint_refines hstateful hcode hpart hreq hok
  | revokeRicardian c opts =>
    obtain ⟨code, -, hpart⟩ := Covenant.codePart_reconstruct hstateful honChain
    obtain ⟨change, -, hb⟩ := buildRicardianTeaRevoke_eq_ok hok
    refine payout_refines hb rfl rfl hpart ?_
    simp only [outputs, Covenant.RicardianTea.revoke, RicardianTea.deployed]

end Methods

section Examples

open BuilderCall (exampleUtxo exampleFunding exampleChange exampleRabinKeys)

/-- An agent identity with the agent key in its code part. -/
def exampleAgentTea : AgentTea where
  artifact :=
    { hexTemplate := ascii "<agent>ac"
      ctorParams := [⟨ascii "owner", .pubkey⟩, ⟨ascii "agent", .pubkey⟩,
        ⟨ascii "ricardianHash", .sha256⟩, ⟨ascii "perTxLimit", .int⟩, ⟨ascii "dailyLimit", .int⟩,
        ⟨ascii "windowDuration", .int⟩, ⟨ascii "graduationThreshold", .int⟩,
        ⟨ascii "validatorThreshold", .int⟩, ⟨ascii "designatedValidatorPubKey", .int⟩,
        ⟨ascii "validatorRabinPubKey", .int⟩, ⟨ascii "recoveryKeys", .fixedArray⟩,
        ⟨ascii "recoveryThreshold", .int⟩]
      structs := []
      stateProps := [⟨ascii "agent", .pubkey⟩, ⟨ascii "txCount", .int⟩,
        ⟨ascii "spentInWindow", .int⟩, ⟨ascii "windowStart", .int⟩, ⟨ascii "tier", .int⟩,
        ⟨ascii "recoveryCount", .int⟩] }
  params := ⟨List.replicate 33 3, List.replicate 33 2, List.replicate 32 0x11, 100000, 1000000,
    86400, 5, 50000, 35, 77, exampleRabinKeys, 2⟩
  state := ⟨4, 300, 1699999000, 1, 0⟩

/-- The action that graduates the example. -/
def exampleAction : TeaMethod :=
  .executeAction exampleAgentTea (Block.fill 33 3) 100 (Block.fill 32 0x22)
    (Block.fill 32 0x33) 0 1700000000 ⟨exampleFunding, some exampleChange, true, 0, false⟩

theorem refines_covenant_graduation :
    ∃ script tx, exampleAction.Refines codePrims exampleUtxo script tx := by
  obtain ⟨script, hscript, tx, hok, -⟩ :
      ∃ script, exampleAction.onChain false = .ok script
        ∧ ∃ tx, (exampleAction.call exampleUtxo).build codePrims = .ok tx ∧ True := by
    decide +kernel
  exact ⟨script, tx, refines_covenant rfl hscript ⟨by decide, by decide⟩ hok⟩

end Examples

end TeaMethod

end BonsaiChain
