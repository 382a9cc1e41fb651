import BonsaiChain.AgentdLineage
import BonsaiChain.Proofs.AgentTea
import BonsaiChain.Proofs.Bignum
import BonsaiChain.Proofs.TeaMethod
import BonsaiChain.Proofs.Tx

/-!
# The code part of a resumed agent

The agent rebuilds the contract from the persisted parameters and the state section of its tip, and
puts the agent key of the state section into the constructor as well. So its outputs keep the code
part of the deploy as long as no recovery has rotated the key.
-/

namespace BonsaiChain

open Lib

section Helpers

theorem orFail_eq_ok {ε α : Type} {x : Except ε α} {msg : String} {a : α} :
    orFail x msg = .ok a ↔ x = .ok a := by
  cases x <;> simp [orFail, Except.mapError]

theorem failIf_eq_ok {p : Prop} [Decidable p] {msg : String} {u : Unit} :
    failIf p msg = .ok u ↔ ¬p := by
  unfold failIf
  split_ifs with h <;> simp [h]

theorem decodeField_hexEncode {bs : Bytes} {n : ℕ} (h : bs.length = n) :
    decodeField (some (hexEncode bs)) n = .ok bs := by
  simp [decodeField, bind, Except.bind, h]

theorem decodeField_eq_ok {hex : CString} {n : ℕ} {bs : Bytes}
    (h : decodeField (some hex) n = .ok bs) : hexDecode hex = .ok bs ∧ bs.length = n := by
  simp only [decodeField, bind_eq_ok] at h
  obtain ⟨bs', hdec, h⟩ := h
  split_ifs at h with hlen
  obtain rfl := Except.ok.inj h
  exact ⟨hdec, hlen⟩

end Helpers

section RawTip

theorem signInputs_mem : ∀ {is : List TxIn} {sigs : List Bytes} {i : TxIn}, i ∈ signInputs is sigs →
    ∃ j ∈ is, i.prevTxidDisplay = j.prevTxidDisplay
  | [], sigs, i, h => by
    cases sigs <;> simp [signInputs] at h
  | j :: is, [], i, h => ⟨i, h, rfl⟩
  | j :: is, sig :: sigs, i, h => by
    simp only [signInputs, List.mem_cons] at h
    rcases h with rfl | h
    · exact ⟨j, List.mem_cons_self .., rfl⟩
    · obtain ⟨k, hk, heq⟩ := signInputs_mem h
      exact ⟨k, List.mem_cons_of_mem _ hk, heq⟩

theorem signed_inputs_lower {b : Tx} (sigs : List Bytes)
    (hlow : ∀ i ∈ b.inputs, hexToLower i.prevTxidDisplay = i.prevTxidDisplay) :
    ∀ i ∈ (signed b sigs).inputs, hexToLower i.prevTxidDisplay = i.prevTxidDisplay := by
  intro i hi
  obtain ⟨j, hj, heq⟩ := signInputs_mem hi
  rw [heq, hlow j hj]

/-- The persisted raw transaction deserializes to the signed transaction. -/
theorem signAndBuild_eq_ok {b : Tx} {sigs : List Bytes} {rawHex : CString}
    (hok : signAndBuild b sigs = .ok rawHex)
    (hlow : ∀ i ∈ b.inputs, hexToLower i.prevTxidDisplay = i.prevTxidDisplay) :
    txDeserialize rawHex = .ok (signed b sigs) := by
  simp only [signAndBuild, bind_eq_ok, pure_eq_ok] at hok
  obtain ⟨raw, hraw, rfl⟩ := hok
  exact txDeserialize_of_lower hraw (signed_inputs_lower sigs hlow)

/-- Signing leaves the outputs that were built. -/
theorem signAndBuild_outputs {b : Tx} {sigs : List Bytes} {rawHex : CString}
    (hok : signAndBuild b sigs = .ok rawHex)
    (hlow : ∀ i ∈ b.inputs, hexToLower i.prevTxidDisplay = i.prevTxidDisplay) :
    ∃ tip, txDeserialize rawHex = .ok tip ∧ tip.outputs = b.outputs :=
  ⟨_, signAndBuild_eq_ok hok hlow, rfl⟩

theorem fundingInputs_lower (funding : List FundingUtxo) : ∀ i ∈ funding.map fundingInput,
    hexToLower i.prevTxidDisplay = i.prevTxidDisplay := by
  intro i hi
  obtain ⟨u, -, rfl⟩ := List.mem_map.mp hi
  exact hexToLower_hexToLower u.txId

theorem Built.inputs_lower {P : Prims} {utxo : ContractUtxo} {sequence : UInt32}
    {funding : List FundingUtxo} {pinned : List TxOut} {req : ChangeRequest} {seed : ℤ}
    {locktime : UInt32} {tx : Tx} {change : UInt64}
    (hb : Built P utxo sequence funding pinned req seed locktime tx change) :
    ∀ i ∈ tx.inputs, hexToLower i.prevTxidDisplay = i.prevTxidDisplay := by
  rw [hb.tx_eq, List.forall_mem_cons]
  exact ⟨hexToLower_hexToLower utxo.txidDisplay, fundingInputs_lower funding⟩

end RawTip

section Invariant

/-- The persisted fields and the raw tip of an agent whose contract on chain is `this`. -/
structure AtTip (d : DeployArgs) (this : Covenant.AgentTea) (st : AgentState) : Prop where
  ricardianHash : st.ricardianHash = some d.ricardianHash
  owner : st.owner = some (hexEncode d.elderPub.1)
  agentPubKey : st.agentPubKey = some (hexEncode this.agent)
  params : st.params = agentParamsDefaults
  rabinPub : st.rabinPub = deployRabinPub d
  vout : st.tip.vout = 0
  rawTip : ∃ rawTxHex tip o isGenesis, st.tip.rawTxHex = some rawTxHex
    ∧ txDeserialize rawTxHex = .ok tip ∧ tip.outputs[0]? = some o
    ∧ reconstructLockingScript d.artifact (agentTeaCtor this.params) this.stateValues isGenesis
      = .ok o.script

/-- The contract on chain: the constants of the deploy, and a state the decoder reads. -/
structure OfDeploy (d : DeployArgs) (this : Covenant.AgentTea) : Prop where
  ricardianHash : decodeField (some d.ricardianHash) 32 = .ok this.params.ricardianHash
  params : this.params = deployParams d this.params.ricardianHash
  stateProps : this.stateProps = d.artifact.stateProps
  code : reconstructCode d.artifact (agentTeaCtor this.params) = .ok this.code
  agent : this.agent.length = 33
  nonNeg : this.state.NonNeg

variable {d : DeployArgs} {this : Covenant.AgentTea} {st : AgentState}

/-- The constructor parameters at the tip are those of the deploy, with the agent key of the state
section. -/
theorem paramsAtTip_eq (ht : AtTip d this st) (hd : OfDeploy d this) :
    paramsAtTip st this.agent = .ok { this.params with agent := this.agent } := by
  have howner : decodeField st.owner 33 = .ok d.elderPub.1 := by
    rw [ht.owner]
    exact decodeField_hexEncode d.elderPub.2
  have hricardian : decodeField st.ricardianHash 32 = .ok this.params.ricardianHash := by
    rw [ht.ricardianHash, hd.ricardianHash]
  rw [hd.params]
  simp only [paramsAtTip, howner, hricardian, ht.rabinPub, deployRabinPub, ht.params, hd.agent,
    if_true, orFail,
    Except.mapError, decodeDec, bnParseDec_bnToDec, List.getElem?_cons_zero,
    List.getElem?_cons_succ, bind, Except.bind, pure, Except.pure]
  rfl

theorem instanceAtTip_eq (hstateful : d.artifact.stateful = true) (ht : AtTip d this st)
    (hd : OfDeploy d this) :
    ∃ script value, instanceAtTip st d.artifact
      = .ok (⟨d.artifact, { this.params with agent := this.agent }, this.state⟩,
        script, value) := by
  obtain ⟨rawTxHex, tip, o, isGenesis, hraw, htip, hout, hscript⟩ := ht.rawTip
  have hdecode : agentTeaFromTx o.script = .ok (this.state, this.agent) :=
    agentTeaFromTx_reconstruct hstateful hd.agent hd.nonNeg hscript
  refine ⟨o.script, o.satoshis, ?_⟩
  simp only [instanceAtTip, hraw, ht.ricardianHash, htip, ht.vout, UInt32.toNat_zero, hout, hdecode,
    paramsAtTip_eq ht hd, orFail, Except.mapError, bind, Except.bind, pure, Except.pure]

end Invariant

section Deploy

variable {d : DeployArgs} {tx : Tx} {st : AgentState}

theorem deployTx_eq_ok {script : Bytes} (hok : deployTx d script = .ok tx) :
    tx.inputs = d.funding.map fundingInput
      ∧ tx.outputs[0]? = some ⟨agentdIdentitySats, script⟩ := by
  simp only [deployTx, bind_eq_ok, orFail_eq_ok] at hok
  obtain ⟨-, -, r, hfund, totalIn, -, -, -, hok⟩ := hok
  obtain ⟨hr, -⟩ := addFunding_eq_ok hfund
  have hin : (txBuilderAddOutput r.1 script agentdIdentitySats).inputs = d.funding.map fundingInput
      ∧ (txBuilderAddOutput r.1 script agentdIdentitySats).outputs = [⟨agentdIdentitySats, script⟩]
      := by
    rw [hr]
    exact ⟨rfl, rfl⟩
  split_ifs at hok
  · obtain rfl := pure_eq_ok.mp hok
    refine ⟨hin.1, ?_⟩
    show (_ ++ [_])[0]? = _
    rw [hin.2]
    rfl
  · obtain rfl := pure_eq_ok.mp hok
    rw [hin.2]
    exact ⟨hin.1, rfl⟩

/-- A deploy puts the contract of its arguments on chain and persists its tip. -/
theorem cmdDeploy_eq_ok (hstateful : d.artifact.stateful = true)
    (hok : cmdDeploy d = .ok (tx, st)) :
    OfDeploy d (d.contract tx) ∧ AtTip d (d.contract tx) st
      ∧ ∃ genesis ∈ tx.outputs.head?, Covenant.codePart genesis.script = some (d.contract tx).code
      := by
  simp only [cmdDeploy, bind_eq_ok, orFail_eq_ok, pure_eq_ok, Prod.mk.injEq] at hok
  obtain ⟨ricardianHash, hricardian, script, hscript, b, hb, rawHex, hraw, rfl, rfl⟩ := hok
  obtain ⟨hin, hout⟩ := deployTx_eq_ok hb
  obtain ⟨code, hcode, hpart⟩ := Covenant.codePart_reconstruct hstateful hscript
  have hparams : (d.contract b).params = deployParams d ricardianHash := by
    show deployParams d _ = _
    rw [(decodeField_eq_ok hricardian).1]
    rfl
  have hcontract : (d.contract b).code = code := by
    simp only [DeployArgs.contract, List.head?_eq_getElem?, hout, Option.bind_some, hpart,
      Option.getD_some]
  have hhash : (d.contract b).params.ricardianHash = ricardianHash := by rw [hparams]; rfl
  obtain ⟨tip, htip, htipout⟩ := signAndBuild_outputs hraw (by
    rw [hin]
    exact fundingInputs_lower d.funding)
  refine ⟨⟨?_, ?_, rfl, ?_, d.agentPub.2, ⟨?_, ?_, ?_, ?_, ?_⟩⟩,
    ⟨rfl, rfl, rfl, rfl, rfl, rfl, rawHex, tip, ⟨agentdIdentitySats, script⟩, true, rfl, htip, ?_,
      ?_⟩, ⟨agentdIdentitySats, script⟩, ?_, ?_⟩
  · rw [hhash, hricardian]
  · rw [hhash, hparams]
  · rw [hparams, hcontract, ← hcode]
  · exact le_refl 0
  · exact le_refl 0
  · exact le_refl 0
  · exact zero_le_one
  · exact le_refl 0
  · rw [htipout, hout]
  · rw [hparams]
    exact hscript
  · rw [List.head?_eq_getElem?, hout]
    rfl
  · rw [hcontract]
    exact hpart

end Deploy

section Step

variable {P : Prims} {d : DeployArgs} {this : Covenant.AgentTea} {st st' : AgentState}
  {op : AgentdOp} {tx deployTx : Tx}

/-- The contract rebuilt at the tip while the agent key is the deployed one. -/
theorem deployed_eq (hd : OfDeploy d this) (hagent : this.agent = d.agentPub.1) :
    { this.params with agent := this.agent } = this.params
      ∧ (AgentTea.mk d.artifact this.params this.state).deployed this.code = this := by
  have hparams : this.params.agent = this.agent := by
    rw [hd.params, hagent]
    rfl
  refine ⟨by rw [← hparams], ?_⟩
  unfold AgentTea.deployed
  simp only [hparams, ← hd.stateProps]

variable {identity : ContractUtxo} {sequence locktime : UInt32} {funding : List FundingUtxo}
  {script pre : Bytes} {req : ChangeRequest} {seed : ℤ} {change : UInt64}

/-- A transaction that recreates the contract's next state behind the deployed code part keeps the
lineage. -/
theorem keepsLineage_of_built (hstateful : d.artifact.stateful = true) (hd : OfDeploy d this)
    (hgenesis : ∃ genesis ∈ deployTx.outputs.head?,
      Covenant.codePart genesis.script = some this.code)
    (hb : Built P identity sequence funding
      [⟨identity.value, script⟩, ⟨0, receiptScript (P.sha256 pre)⟩] req seed locktime tx change)
    (hscript : reconstructLockingScript d.artifact (agentTeaCtor this.params)
      (op.next this).stateValues false = .ok script)
    (hpre : op.receipt this = some pre) :
    AgentdEvent.KeepsLineage P deployTx ⟨st, this, op, tx⟩ := by
  obtain ⟨code, hcode, hpart⟩ := Covenant.codePart_reconstruct hstateful hscript
  obtain rfl := Except.ok.inj (hd.code.symm.trans hcode)
  obtain ⟨genesis, hhead, hcodePart⟩ := hgenesis
  have hstate := Covenant.getStateScript_eq_some hstateful hd.code hscript
  refine ⟨⟨⟨identity.value, script⟩, ?_, genesis, hhead, this.code, hcodePart, hpart, ?_⟩,
    pre, hpre,
    ?_⟩
  · rw [hb.tx_eq]
    rfl
  · rw [hd.stateProps]
    exact hstate
  · rw [hb.tx_eq, Covenant.buildOpreturnScript_hash]
    rfl

theorem rawTip_of_built (next : Covenant.AgentTea) {sigs : List Bytes} {rawHex : CString}
    {receipt : Bytes}
    (hb : Built P identity sequence funding [⟨identity.value, script⟩, ⟨0, receipt⟩] req seed
      locktime tx change)
    (hscript : reconstructLockingScript d.artifact (agentTeaCtor next.params) next.stateValues false
      = .ok script)
    (hraw : signAndBuild tx sigs = .ok rawHex) :
    ∃ rawTxHex tip o isGenesis, some rawHex = some rawTxHex
      ∧ txDeserialize rawTxHex = .ok tip ∧ tip.outputs[0]? = some o
      ∧ reconstructLockingScript d.artifact (agentTeaCtor next.params) next.stateValues isGenesis
        = .ok o.script := by
  obtain ⟨tip, htip, hout⟩ := signAndBuild_outputs hraw hb.inputs_lower
  refine ⟨rawHex, tip, ⟨identity.value, script⟩, false, rfl, htip, ?_, hscript⟩
  rw [hout, hb.tx_eq]
  rfl

theorem nonNeg_executed {amount now : ℤ} (hs : this.state.NonNeg) (hamount : 0 ≤ amount)
    (hnow : 0 ≤ now) : (this.executed amount now).state.NonNeg := by
  obtain ⟨h1, h2, h3, h4, h5⟩ := hs
  refine ⟨?_, ?_, ?_, ?_, h5⟩
  · show 0 ≤ this.state.txCount + 1
    omega
  · show 0 ≤ Covenant.AgentTea.spent this.params this.state amount now
    unfold Covenant.AgentTea.spent
    split_ifs <;> omega
  · show 0 ≤ Covenant.AgentTea.windowStart this.params this.state now
    unfold Covenant.AgentTea.windowStart
    split_ifs <;> omega
  · show 0 ≤ if _ then (2 : ℤ) else this.state.tier
    split_ifs <;> omega

/-- A step taken while the agent key is the deployed one keeps the lineage and the invariant. -/
theorem agentdStep_eq_ok (hstateful : d.artifact.stateful = true) (ht : AtTip d this st)
    (hd : OfDeploy d this) (hagent : this.agent = d.agentPub.1)
    (hgenesis : ∃ genesis ∈ deployTx.outputs.head?,
      Covenant.codePart genesis.script = some this.code)
    (hok : agentdStep P d.artifact st op = .ok (tx, st')) :
    AgentdEvent.KeepsLineage P deployTx ⟨st, this, op, tx⟩ ∧ OfDeploy d (op.next this)
      ∧ AtTip d (op.next this) st' := by
  obtain ⟨tipScript, value, hinst⟩ := instanceAtTip_eq hstateful ht hd
  obtain ⟨hparams, hdeployed⟩ := deployed_eq hd hagent
  rw [hparams] at hinst
  cases op with
  | action counterparty amount actionHash provenanceHash now a =>
    simp only [agentdStep, cmdAction, hinst, bind_eq_ok, Except.ok.injEq, orFail_eq_ok,
      failIf_eq_ok,
      pure_eq_ok, Prod.mk.injEq] at hok
    obtain ⟨_, rfl, -, -, -, hnow, b, hbuild, rawHex, hraw, rfl, rfl⟩ := hok
    obtain ⟨pre, script, change, hpre, hscript, hb⟩ := buildAgentTeaAction_eq_ok hbuild
    have hreceipt : this.receipt counterparty amount actionHash provenanceHash now = some pre := by
      rw [← hdeployed]
      exact agentTeaReceipt_of_ok hpre
    have hagent' : this.params.agent = this.agent := congrArg AgentTeaParams.agent hparams.symm
    have hscript' : reconstructLockingScript d.artifact (agentTeaCtor this.params)
        (this.executed amount now).stateValues false = .ok script := by
      rw [← hscript]
      show _ = reconstructLockingScript _ _ (agentTeaStateValues this.params.agent _) _
      rw [hagent']
      rfl
    refine ⟨keepsLineage_of_built hstateful hd hgenesis hb hscript' hreceipt,
      ⟨hd.ricardianHash, hd.params,
      hd.stateProps, hd.code, hd.agent,
      nonNeg_executed hd.nonNeg (Int.natCast_nonneg _) (by omega)⟩,
      ⟨ht.ricardianHash, ht.owner, ht.agentPubKey, ht.params, ht.rabinPub, rfl,
        rawTip_of_built (this.executed amount now) hb hscript' hraw⟩⟩
  | recover newAgent used a =>
    simp only [agentdStep, cmdRecover, hinst, bind_eq_ok, Except.ok.injEq, orFail_eq_ok,
      failIf_eq_ok,
      guard_eq_ok, pure_eq_ok, Prod.mk.injEq] at hok
    obtain ⟨_, rfl, -, -, -, -, -, -, -, b, hbuild, rawHex, hraw, rfl, rfl⟩ := hok
    obtain ⟨pre, script, change, hpre, hscript, hb⟩ := buildAgentTeaRecover_eq_ok hbuild
    have hreceipt : this.recoveryReceipt newAgent = some pre := by
      rw [← hdeployed]
      exact agentTeaRecovery_of_ok hpre
    have hscript' : reconstructLockingScript d.artifact (agentTeaCtor this.params)
        (this.recovered newAgent).stateValues false = .ok script := hscript
    have hs := hd.nonNeg
    refine ⟨keepsLineage_of_built hstateful hd hgenesis hb hscript' hreceipt,
      ⟨hd.ricardianHash, hd.params,
      hd.stateProps, hd.code, newAgent.2, ⟨hs.1, hs.2, hs.3, hs.4, ?_⟩⟩,
      ⟨ht.ricardianHash, ht.owner, rfl, ht.params, ht.rabinPub, rfl,
        rawTip_of_built (this.recovered newAgent) hb hscript' hraw⟩⟩
    show 0 ≤ this.state.recoveryCount + 1
    have := hs.recoveryCount
    omega

end Step

section Runs

variable {P : Prims} {d : DeployArgs} {this : Covenant.AgentTea} {st : AgentState}
  {es : List AgentdEvent} {deployTx : Tx}

theorem next_code (op : AgentdOp) : (op.next this).code = this.code := by
  cases op <;> rfl

/-- A run whose steps all found the deployed key keeps the invariant. -/
theorem AgentdRun.inv (hstateful : d.artifact.stateful = true)
    (hrun : AgentdRun P d deployTx es st this) : (∀ e ∈ es, e.Unrotated d) →
    (∀ e ∈ es, e.KeepsLineage P deployTx) ∧ OfDeploy d this ∧ AtTip d this st
      ∧ ∃ genesis ∈ deployTx.outputs.head?,
        Covenant.codePart genesis.script = some this.code := by
  induction hrun with
  | deploy hok =>
    intro _
    obtain ⟨hd, ht, hgenesis⟩ := cmdDeploy_eq_ok hstateful hok
    exact ⟨by simp, hd, ht, hgenesis⟩
  | @step tx es st st' this op h hok ih =>
    intro hes
    rw [List.forall_mem_append, List.forall_mem_singleton] at hes
    obtain ⟨hkeeps, hd, ht, hgenesis⟩ := ih hes.1
    have hagent : this.agent = d.agentPub.1 := by
      have hkey := hes.2
      unfold AgentdEvent.Unrotated at hkey
      rw [ht.agentPubKey, Option.some.injEq] at hkey
      exact hexEncode_inj hkey
    obtain ⟨hkeep, hd', ht'⟩ := agentdStep_eq_ok hstateful ht hd hagent hgenesis hok
    refine ⟨?_, hd', ht', ?_⟩
    · rw [List.forall_mem_append, List.forall_mem_singleton]
      exact ⟨hkeeps, hkeep⟩
    · rw [next_code]
      exact hgenesis

/-- In every run whose steps all find the deployed agent key in the persisted state, every built
transaction keeps the code part of the deploy and recreates the state the covenant computes. -/
theorem AgentdRun.keepsLineage (hstateful : d.artifact.stateful = true)
    (hrun : AgentdRun P d deployTx es st this) (hkey : ∀ e ∈ es, e.Unrotated d) :
    ∀ e ∈ es, e.KeepsLineage P deployTx :=
  (hrun.inv hstateful hkey).1

end Runs

section Examples

open BuilderCall (exampleFunding exampleChange)

/-- A deploy of the example artifact. -/
def exampleDeploy : DeployArgs where
  artifact := TeaMethod.exampleAgentTea.artifact
  elderPub := Block.fill 33 3
  agentPub := Block.fill 33 2
  ricardianHash := List.replicate 64 49
  rabinPubkeys := #v[35, 77, 1081, 2021, 3053]
  funding := exampleFunding
  change20 := exampleChange
  recommended := 40
  sigs := []
  txid := ascii "bdf966f5a6f6ec24d07324fc5a22c5369d67479ff0a03d0442d4fd1b2ef9deec"

def exampleStepArgs (fundingTxid txid : CString) : StepArgs :=
  ⟨[⟨fundingTxid, 0, 5000⟩], exampleChange, 40, [], txid⟩

/-- The key the example is recovered to. -/
def exampleNewAgent : Block 33 := ⟨0x02 :: List.replicate 32 5, rfl⟩

def exampleRecover : AgentdOp :=
  .recover exampleNewAgent 2 (exampleStepArgs (List.replicate 64 52)
    (ascii "e1395d4b27218d42ed5bcb6333ab479e2ec3f76ca85580266b0f924e4888c580"))

def exampleAgentdAction : AgentdOp :=
  .action (Block.fill 33 3) 100 (Block.fill 32 0x22) (Block.fill 32 0x33)
    1700000000 (exampleStepArgs (List.replicate 64 53) (List.replicate 64 54))

theorem keepsLineage_recover : ∃ deployTx es st this,
    AgentdRun codePrims exampleDeploy deployTx es st this
      ∧ es.map AgentdEvent.op = [exampleRecover]
      ∧ ∀ e ∈ es, e.KeepsLineage codePrims deployTx := by
  obtain ⟨⟨deployTx, st⟩, hdeploy, hkey, ⟨tx, st'⟩, hstep, -⟩ :
      ∃ r, cmdDeploy exampleDeploy = .ok r
        ∧ r.2.agentPubKey = some (hexEncode exampleDeploy.agentPub.1)
        ∧ ∃ r', agentdStep codePrims exampleDeploy.artifact r.2 exampleRecover = .ok r'
          ∧ True := by
    decide +kernel
  have hrun := AgentdRun.step (AgentdRun.deploy hdeploy) hstep
  refine ⟨deployTx, _, st', _, hrun, rfl, hrun.keepsLineage rfl ?_⟩
  rw [List.nil_append, List.forall_mem_singleton]
  exact hkey

/-- An action after a recovery to a new key puts that key into the code part. -/
theorem action_after_recover_changes_code : ∃ deployTx es st this,
    AgentdRun codePrims exampleDeploy deployTx es st this
      ∧ es.map AgentdEvent.op = [exampleRecover, exampleAgentdAction]
      ∧ ∃ e ∈ es, ¬e.KeepsLineage codePrims deployTx := by
  obtain ⟨⟨deployTx, st⟩, hdeploy, ⟨tx, st'⟩, hrecover, ⟨tx', st''⟩, haction, hbad⟩ :
      ∃ r, cmdDeploy exampleDeploy = .ok r
        ∧ ∃ r', agentdStep codePrims exampleDeploy.artifact r.2 exampleRecover = .ok r'
          ∧ ∃ r'', agentdStep codePrims exampleDeploy.artifact r'.2 exampleAgentdAction
              = .ok r''
            ∧ ¬AgentdEvent.KeepsLineage codePrims r.1
              ⟨r'.2, exampleRecover.next (exampleDeploy.contract r.1), exampleAgentdAction, r''.1⟩
      := by
    decide +kernel
  refine ⟨deployTx, _, st'', _, .step (.step (.deploy hdeploy) hrecover) haction, rfl, _,
    List.mem_append_right _ (List.mem_singleton_self _), hbad⟩

end Examples

end BonsaiChain
