import BonsaiChain.Proofs.Agentd

/-!
# What a resumed agent persists

A step decodes the state of its tip, hands it to the builder as the contract's state, and advances
the persisted counters on its own. The two computations agree on every step, so the persisted
counters are those of the next tip.
-/

namespace BonsaiChain

open Lib

section Instance

/-- What the counters of a step depend on: the decoded state and key, and the persisted window and
graduation parameters. -/
structure InstanceOf (st : AgentState) (s : AgentTeaState) (agent : Bytes) (inst : AgentTea) :
    Prop where
  state : inst.state = s
  agent : inst.params.agent = agent
  windowDuration : inst.params.windowDuration = st.params.windowDuration
  graduationThreshold : inst.params.graduationThreshold = st.params.graduationThreshold

variable {st : AgentState} {artifact : ScryptArtifact} {inst : AgentTea} {script rawTxHex : Bytes}
  {value : UInt64} {tip : Tx} {o : TxOut} {s : AgentTeaState} {agent : Bytes}

theorem paramsAtTip_eq_ok {p : AgentTeaParams} (hlen : agent.length = 33)
    (h : paramsAtTip st agent = .ok p) : p.agent = agent
      ∧ p.windowDuration = st.params.windowDuration
      ∧ p.graduationThreshold = st.params.graduationThreshold := by
  simp only [paramsAtTip, hlen, if_true, bind_eq_ok, orFail_eq_ok, pure_eq_ok,
    Except.ok.injEq] at h
  obtain ⟨owner, -, agent', rfl, ricardianHash, -, guardian, -, own, -, r0, -, r1, -, r2, -,
    rfl⟩ := h
  exact ⟨rfl, rfl, rfl⟩

theorem instanceAtTip_eq_ok (hraw : st.tip.rawTxHex = some rawTxHex)
    (htip : txDeserialize rawTxHex = .ok tip) (hout : tip.outputs[st.tip.vout.toNat]? = some o)
    (hdecode : agentTeaFromTx o.script = .ok (s, agent)) (hlen : agent.length = 33)
    (h : instanceAtTip st artifact = .ok (inst, script, value)) :
    inst.artifact = artifact ∧ InstanceOf st s agent inst := by
  unfold instanceAtTip at h
  rw [hraw] at h
  rcases hhash : st.ricardianHash with _ | ricardianHash
  · rw [hhash] at h
    exact nomatch h
  rw [hhash] at h
  simp only [bind_eq_ok, orFail_eq_ok, htip, Except.ok.injEq] at h
  obtain ⟨_, rfl, h⟩ := h
  rw [hout] at h
  simp only [bind_eq_ok, orFail_eq_ok, hdecode, Except.ok.injEq, pure_eq_ok, Prod.mk.injEq] at h
  obtain ⟨_, rfl, p, hp, rfl, -, -⟩ := h
  obtain ⟨hagent, hwindow, hgraduation⟩ := paramsAtTip_eq_ok hlen hp
  exact ⟨rfl, rfl, hagent, hwindow, hgraduation⟩

end Instance

section Counters

theorem agentTeaApplyAction_nonNeg {c : AgentTea} {amount now : ℤ} (hs : c.state.NonNeg)
    (hamount : 0 ≤ amount) (hnow : 0 ≤ now) : (agentTeaApplyAction c amount now).NonNeg := by
  -- the covenant's successor state, of which only the code part is not given here
  show ((c.deployed []).executed amount now).state.NonNeg
  exact nonNeg_executed hs hamount hnow

/-- The counters the step advances by hand are those of the state the builder puts on chain. -/
theorem advanceState_eq {st : AgentState} {s : AgentTeaState} {agent : Bytes} {inst : AgentTea}
    (hinst : InstanceOf st s agent inst) (hstate : st.state = s.runtime) (amount now : ℤ) :
    advanceState st.params st.state amount now
      = (agentTeaApplyAction inst amount now).runtime := by
  obtain ⟨rfl, -, hwindow, hgraduation⟩ := hinst
  rw [hstate]
  simp only [advanceState, agentTeaApplyAction, AgentTeaState.runtime, hwindow, hgraduation]
  rfl

end Counters

section Step

/-- The tip carries a state section of `s` and `agent`, which the persisted state spells. -/
structure TipCarries (sha256d : Bytes → Bytes) (st : AgentState) (s : AgentTeaState)
    (agent : Bytes) : Prop where
  state : st.state = s.runtime
  agentPubKey : st.agentPubKey = some (hexEncode agent)
  nonNeg : s.NonNeg
  agentLen : agent.length = 33
  rawTip : ∃ rawTxHex tip o, st.tip.rawTxHex = some rawTxHex ∧ txDeserialize rawTxHex = .ok tip
    ∧ tip.outputs[st.tip.vout.toNat]? = some o ∧ agentTeaFromTx o.script = .ok (s, agent)
    ∧ ∃ txid, st.tip.txid = some txid ∧ txId sha256d tip = .ok txid

variable {sha256d : Bytes → Bytes} {P : Prims} {d : DeployArgs} {st st' : AgentState}
  {s : AgentTeaState} {agent : Bytes} {op : AgentdOp} {tx : Tx} {this : Covenant.AgentTea}

theorem TipCarries.mirrors (h : TipCarries sha256d st s agent) : st.MirrorsTip sha256d := by
  obtain ⟨rawTxHex, tip, o, hraw, htip, hout, hdecode, txid, htxid, hid⟩ := h.rawTip
  exact ⟨rawTxHex, hraw, tip, htip, ⟨o, hout, s, agent, hdecode, h.state, h.agentPubKey⟩,
    txid, htxid, hid⟩

/-- The tip a step persists is the transaction it built, with the state section of output 0. -/
theorem rawTip_of_signed {rawHex txid : CString} {sigs : List Bytes} {value : UInt64}
    {artifact : ScryptArtifact} {ctor : List ScryptArg} {isGenesis : Bool} {script : Bytes}
    (hstateful : artifact.stateful = true) (hagent : agent.length = 33) (hs : s.NonNeg)
    (hscript : reconstructLockingScript artifact ctor (agentTeaStateValues agent s) isGenesis
      = .ok script)
    (hout : tx.outputs[0]? = some ⟨value, script⟩)
    (hlow : ∀ i ∈ tx.inputs, hexToLower i.prevTxidDisplay = i.prevTxidDisplay)
    (hraw : signAndBuild tx sigs = .ok rawHex) (hid : txId sha256d (signed tx sigs) = .ok txid) :
    ∃ rawTxHex tip o, some rawHex = some rawTxHex ∧ txDeserialize rawTxHex = .ok tip
      ∧ tip.outputs[(0 : UInt32).toNat]? = some o ∧ agentTeaFromTx o.script = .ok (s, agent)
      ∧ ∃ txid', some txid = some txid' ∧ txId sha256d tip = .ok txid' :=
  ⟨rawHex, signed tx sigs, ⟨value, script⟩, rfl, signAndBuild_eq_ok hraw hlow, hout,
    agentTeaFromTx_reconstruct hstateful hagent hs hscript, txid, rfl, hid⟩

theorem cmdDeploy_carries (hstateful : d.artifact.stateful = true)
    (hok : cmdDeploy d = .ok (tx, st)) (hid : d.AnswersId sha256d tx) :
    TipCarries sha256d st agentTeaGenesisState d.agentPub.1 := by
  simp only [cmdDeploy, bind_eq_ok, orFail_eq_ok, pure_eq_ok, Prod.mk.injEq] at hok
  obtain ⟨ricardianHash, -, script, hscript, b, hb, rawHex, hraw, rfl, rfl⟩ := hok
  obtain ⟨hin, hout⟩ := deployTx_eq_ok hb
  have hs : agentTeaGenesisState.NonNeg :=
    ⟨le_rfl, le_rfl, le_rfl, zero_le_one, le_rfl⟩
  refine ⟨rfl, rfl, hs, d.agentPub.2, rawTip_of_signed hstateful d.agentPub.2 hs hscript hout ?_
    hraw hid⟩
  rw [hin]
  exact fundingInputs_lower d.funding

/-- A step leaves a tip whose state section the persisted state spells. -/
theorem agentdStep_carries (hstateful : d.artifact.stateful = true)
    (ht : TipCarries sha256d st s agent) (hok : agentdStep P d.artifact st op = .ok (tx, st'))
    (hid : AgentdEvent.AnswersId sha256d ⟨st, this, op, tx⟩) :
    ∃ s' agent', TipCarries sha256d st' s' agent' := by
  obtain ⟨rawTxHex, tip, o, hraw, htip, hout, hdecode, -⟩ := ht.rawTip
  have hinst : ∀ {inst script value}, instanceAtTip st d.artifact = .ok (inst, script, value) →
      inst.artifact = d.artifact ∧ InstanceOf st s agent inst :=
    instanceAtTip_eq_ok hraw htip hout hdecode ht.agentLen
  cases op with
  | action counterparty amount actionHash provenanceHash now a =>
    simp only [agentdStep, cmdAction, bind_eq_ok, orFail_eq_ok, failIf_eq_ok, pure_eq_ok,
      Prod.mk.injEq] at hok
    obtain ⟨⟨inst, tipScript, value⟩, hat, -, -, -, hnow, b, hbuild, rawHex, hsign, rfl, rfl⟩ := hok
    obtain ⟨hartifact, hof⟩ := hinst hat
    rw [← hartifact] at hstateful
    obtain ⟨pre, script, change, -, hscript, hb⟩ := buildAgentTeaAction_eq_ok hbuild
    have hs : (agentTeaApplyAction inst amount now).NonNeg :=
      agentTeaApplyAction_nonNeg (hof.state ▸ ht.nonNeg) (Int.natCast_nonneg amount) (by omega)
    have hlen : inst.params.agent.length = 33 := by rw [hof.agent, ht.agentLen]
    have hout0 : b.outputs[0]? = some ⟨value, script⟩ := by
      rw [hb.tx_eq]
      rfl
    refine ⟨_, inst.params.agent, advanceState_eq hof ht.state amount now, ?_, hs, hlen,
      rawTip_of_signed hstateful hlen hs hscript hout0 hb.inputs_lower hsign hid⟩
    rw [hof.agent]
    exact ht.agentPubKey
  | recover newAgent used a =>
    simp only [agentdStep, cmdRecover, bind_eq_ok, orFail_eq_ok, failIf_eq_ok, guard_eq_ok,
      pure_eq_ok, Prod.mk.injEq] at hok
    obtain ⟨⟨inst, tipScript, value⟩, hat, -, -, -, -, -, -, -, b, hbuild, rawHex, hsign, rfl,
      rfl⟩ :=
      hok
    obtain ⟨hartifact, hof⟩ := hinst hat
    rw [← hartifact] at hstateful
    obtain ⟨pre, script, change, -, hscript, hb⟩ := buildAgentTeaRecover_eq_ok hbuild
    have hs : ({ s with recoveryCount := s.recoveryCount + 1 } : AgentTeaState).NonNeg := by
      obtain ⟨h1, h2, h3, h4, h5⟩ := ht.nonNeg
      exact ⟨h1, h2, h3, h4, by show 0 ≤ s.recoveryCount + 1; omega⟩
    have hout0 : b.outputs[0]? = some ⟨value, script⟩ := by
      rw [hb.tx_eq]
      rfl
    have hstate := ht.state
    obtain ⟨rfl, -, -, -⟩ := hof
    refine ⟨{ inst.state with recoveryCount := inst.state.recoveryCount + 1 }, newAgent.1, ?_, rfl,
      hs, newAgent.2,
      rawTip_of_signed hstateful newAgent.2 hs hscript hout0 hb.inputs_lower hsign hid⟩
    show { st.state with recoveryCount := st.state.recoveryCount + 1 } = _
    rw [hstate]
    rfl

end Step

section Runs

variable {sha256d : Bytes → Bytes} {P : Prims} {d : DeployArgs} {st : AgentState}
  {es : List AgentdEvent} {deployTx : Tx} {this : Covenant.AgentTea}

theorem AgentdRun.carries (hstateful : d.artifact.stateful = true)
    (hrun : AgentdRun P d deployTx es st this) : d.AnswersId sha256d deployTx →
    (∀ e ∈ es, e.AnswersId sha256d) →
    (∀ e ∈ es, e.st.MirrorsTip sha256d) ∧ ∃ s agent, TipCarries sha256d st s agent := by
  induction hrun with
  | deploy hok =>
    intro hid _
    exact ⟨by simp, _, _, cmdDeploy_carries hstateful hok hid⟩
  | step h hok ih =>
    intro hid hes
    rw [List.forall_mem_append, List.forall_mem_singleton] at hes
    obtain ⟨hmirrors, s, agent, ht⟩ := ih hid hes.1
    refine ⟨?_, agentdStep_carries hstateful ht hok hes.2⟩
    rw [List.forall_mem_append, List.forall_mem_singleton]
    exact ⟨hmirrors, ht.mirrors⟩

/-- In every run of the agent the state that each step finds and the state it leaves at the end
spell the state section of their tip. -/
theorem AgentdRun.mirrorsTip (hstateful : d.artifact.stateful = true)
    (hrun : AgentdRun P d deployTx es st this) (hdeploy : d.AnswersId sha256d deployTx)
    (hids : ∀ e ∈ es, e.AnswersId sha256d) :
    (∀ e ∈ es, e.st.MirrorsTip sha256d) ∧ st.MirrorsTip sha256d := by
  obtain ⟨hmirrors, s, agent, ht⟩ := hrun.carries hstateful hdeploy hids
  exact ⟨hmirrors, ht.mirrors⟩

end Runs

section Examples

/-- `exampleAgentdAction` with the id of its transaction as the answer. -/
def exampleAnsweredAction : AgentdOp :=
  .action (Block.fill 33 3) 100 (Block.fill 32 0x22) (Block.fill 32 0x33)
    1700000000 (exampleStepArgs (List.replicate 64 53)
      (ascii "c4b2ac9ea9936e3a956e26fe5df53bd070baaaf371b185d30381d1d52cb38d19"))

/-- The bytes whose reverse is the id of a transaction. -/
def exampleTxHash (raw : Bytes) : Bytes := (sha256 (sha256 raw).1).1

theorem mirrorsTip_recover_action : ∃ deployTx es st this,
    AgentdRun codePrims exampleDeploy deployTx es st this
      ∧ es.map AgentdEvent.op = [exampleRecover, exampleAnsweredAction]
      ∧ st.state = ⟨1, 100, 1700000000, 1, 1⟩
      ∧ (∀ e ∈ es, e.st.MirrorsTip exampleTxHash) ∧ st.MirrorsTip exampleTxHash := by
  obtain ⟨⟨deployTx, st⟩, hdeploy, hid, ⟨tx, st'⟩, hrecover, hid', ⟨tx', st''⟩, haction, hid'',
      hstate⟩ :
      ∃ r, cmdDeploy exampleDeploy = .ok r ∧ exampleDeploy.AnswersId exampleTxHash r.1
        ∧ ∃ r', agentdStep codePrims exampleDeploy.artifact r.2 exampleRecover = .ok r'
          ∧ AgentdEvent.AnswersId exampleTxHash
              ⟨r.2, exampleDeploy.contract r.1, exampleRecover, r'.1⟩
          ∧ ∃ r'', agentdStep codePrims exampleDeploy.artifact r'.2 exampleAnsweredAction
              = .ok r''
            ∧ AgentdEvent.AnswersId exampleTxHash
                ⟨r'.2, exampleRecover.next (exampleDeploy.contract r.1), exampleAnsweredAction,
                  r''.1⟩
            ∧ r''.2.state = ⟨1, 100, 1700000000, 1, 1⟩ := by
    decide +kernel
  have hrun := AgentdRun.step (.step (.deploy hdeploy) hrecover) haction
  refine ⟨deployTx, _, st'', _, hrun, rfl, hstate, hrun.mirrorsTip rfl hid ?_⟩
  rw [List.forall_mem_append, List.nil_append, List.forall_mem_singleton, List.forall_mem_singleton]
  exact ⟨hid', hid''⟩

end Examples

end BonsaiChain
