import BonsaiChain.AgentdWorld
import BonsaiChain.Proofs.AgentStateFile
import BonsaiChain.Proofs.Agentd
import BonsaiChain.Proofs.RicardianCharter

/-!
# What an invocation reads back

The records that deploys and steps persist are read back with the same ids, keys, counters and tip.
So an invocation on a record that was written goes on where the one that wrote it ended.
-/

namespace BonsaiChain

open Lib

namespace StateFile

/-- The strings a step reads are there, and the list of keys can be counted. -/
structure AgentState.Named (st : AgentState) : Prop where
  ricardianHash : st.ricardianHash ≠ none
  owner : st.owner ≠ none
  agentPubKey : st.agentPubKey ≠ none
  guardian : st.rabinPub.guardian ≠ none
  ownValidator : st.rabinPub.ownValidator ≠ none
  recovery : st.rabinPub.recovery.length < 2 ^ 31
  txid : st.tip.txid ≠ none
  rawTxHex : st.tip.rawTxHex ≠ none

variable {st : AgentState}

theorem AgentState.Named.reread (h : st.Named) : st.reread.Named where
  ricardianHash := nofun
  owner := nofun
  agentPubKey := nofun
  guardian := nofun
  ownValidator := nofun
  recovery := by
    have hcounted := counted_eq_iff.mpr h.recovery
    simpa [AgentState.reread, AgentRabinPub.reread, hcounted] using h.recovery
  txid := nofun
  rawTxHex := nofun

theorem AgentState.Named.reread_live (h : st.Named) : st.reread.live = st.live := by
  have hrecovery : ∀ v : Option CStr,
      ((some (v.getD (cStr []))).map Subtype.val).getD [] = (v.map Subtype.val).getD [] := by
    rintro (_ | v) <;> rfl
  unfold AgentState.live AgentState.reread AgentRabinPub.reread AgentTip.reread
  simp only [some_getD h.ricardianHash, some_getD h.owner, some_getD h.agentPubKey,
    some_getD h.guardian, some_getD h.ownValidator, some_getD h.txid, some_getD h.rawTxHex,
    counted_eq_iff.mpr h.recovery, List.map_map, Function.comp_def, hrecovery]

end StateFile

section Hex

theorem hexNibble_ne_nul {s : CString} {bs : Bytes} (h : hexDecode s = .ok bs) : 0 ∉ s := fun h0 =>
  absurd ((hexDecode_ok_iff.mp ⟨bs, h⟩).2 0 h0) (by decide)

theorem hexEncode_notNul (bs : Bytes) : 0 ∉ hexEncode bs :=
  hexNibble_ne_nul (hexDecode_hexEncode bs)

theorem cStr_bnToDec (n : ℕ) : (cStr (bnToDec n)).val = bnToDec n := by
  have hnul : (0 : UInt8) ∉ decimalInt n := StateFile.notNul_decimalInt
  rw [decimalInt, if_neg (by omega), Int.natAbs_natCast] at hnul
  exact cStr_eq_of_notMem hnul

theorem signAndBuild_hex {b : Tx} {sigs : List Bytes} {rawHex : CString}
    (h : signAndBuild b sigs = .ok rawHex) : ∃ raw, rawHex = hexEncode raw := by
  simp only [signAndBuild, bind_eq_ok, pure_eq_ok] at h
  obtain ⟨raw, -, rfl⟩ := h
  exact ⟨raw, rfl⟩

variable {P : Prims} {woc : WocClient} {rawHex txid : CString}

/-- The answer to a broadcast is the id of the bytes that were sent. -/
theorem chainBroadcastSend_eq_ok (h : chainBroadcastSend P woc rawHex = .ok txid) :
    ∃ raw, hexDecode rawHex = .ok raw ∧ txid = hexEncode (sha256d P raw).1.reverse := by
  unfold chainBroadcastSend at h
  split_ifs at h with hnil
  simp only [wocClientBroadcast, txidFromRawHex, bind_eq_ok, guard_eq_ok, pure_eq_ok] at h
  obtain ⟨_, ⟨raw, hraw, -, rfl⟩, -, -, rfl⟩ := h
  exact ⟨raw, hraw, rfl⟩

end Hex

section Built

variable {P : Prims} {artifact : ScryptArtifact} {tx : Tx} {st next : AgentState} {rawHex : CString}

/-- The transaction spends the tip and is signed. -/
structure SpendsTip (st : AgentState) (a : StepArgs) (tx : Tx) (rawHex : CString) : Prop where
  signed : signAndBuild tx a.sigs = .ok rawHex
  spends : (hexToLower (st.tip.txid.getD []), st.tip.vout) ∈ (BonsaiChain.signed tx a.sigs).spends

theorem spendsTip_of_built {a : StepArgs} {value : UInt64} {sequence locktime : UInt32}
    {pinned : List TxOut} {req : ChangeRequest} {seed : ℤ} {change : UInt64}
    (hb : Built P (identityAtTip st value) sequence a.opts.funding pinned req seed locktime tx
      change) (hsigned : signAndBuild tx a.sigs = .ok rawHex) : SpendsTip st a tx rawHex := by
  refine ⟨hsigned, ?_⟩
  have hmem : (hexToLower (hexToLower (st.tip.txid.getD [])), st.tip.vout)
      ∈ (signed tx a.sigs).spends := by
    unfold Tx.spends signed
    rw [hb.tx_eq]
    cases a.sigs <;> exact List.mem_cons_self ..
  rwa [hexToLower_hexToLower] at hmem

/-- The agent key that a step persists. -/
def AgentdOp.agentKey (st : AgentState) : AgentdOp → Option CString
  | .action .. => st.agentPubKey
  | .recover newAgent _ _ => some (hexEncode newAgent.1)

/-- What a step builds and what it persists of it. -/
theorem agentdStep_built {op : AgentdOp} (hok : agentdStep P artifact st op = .ok (tx, next)) :
    ∃ rawHex, SpendsTip st op.args tx rawHex
      ∧ next = { st with
        agentPubKey := op.agentKey st
        state := next.state
        tip := nextTip op.args rawHex } := by
  cases op with
  | action counterparty amount actionHash provenanceHash now a =>
    simp only [agentdStep, cmdAction, bind_eq_ok, orFail_eq_ok, failIf_eq_ok, pure_eq_ok,
      Prod.mk.injEq] at hok
    obtain ⟨⟨inst, tipScript, value⟩, -, -, -, -, -, b, hbuild, rawHex, hsign, rfl, rfl⟩ := hok
    obtain ⟨pre, script, change, -, -, hb⟩ := buildAgentTeaAction_eq_ok hbuild
    exact ⟨rawHex, spendsTip_of_built hb hsign, rfl⟩
  | recover newAgent used a =>
    simp only [agentdStep, cmdRecover, bind_eq_ok, orFail_eq_ok, failIf_eq_ok, guard_eq_ok,
      pure_eq_ok, Prod.mk.injEq] at hok
    obtain ⟨⟨inst, tipScript, value⟩, -, -, -, -, -, -, -, -, b, hbuild, rawHex, hsign, rfl,
      rfl⟩ :=
      hok
    obtain ⟨pre, script, change, -, -, hb⟩ := buildAgentTeaRecover_eq_ok hbuild
    exact ⟨rawHex, spendsTip_of_built hb hsign, rfl⟩

theorem cmdRevoke_built {a : StepArgs} (hok : cmdRevoke P artifact st a = .ok (tx, rawHex)) :
    SpendsTip st a tx rawHex := by
  simp only [cmdRevoke, bind_eq_ok, orFail_eq_ok, failIf_eq_ok, pure_eq_ok, Prod.mk.injEq] at hok
  obtain ⟨⟨inst, tipScript, value⟩, -, -, -, b, hbuild, rawHex, hsign, rfl, rfl⟩ := hok
  obtain ⟨change, -, hb⟩ := buildAgentTeaRevoke_eq_ok hbuild
  exact spendsTip_of_built hb hsign

end Built

section Records

open StateFile

variable {P : Prims} {artifact : ScryptArtifact} {tx : Tx} {woc : WocClient}
  {st record : StateFile.AgentState} {rawHex : CString}

theorem tipRecord_live (bs raw : Bytes) (vout : UInt32) :
    tipRecord ⟨some (hexEncode bs), vout, some (hexEncode raw)⟩
      = ⟨some ⟨hexEncode bs, hexEncode_notNul bs⟩, vout,
        some ⟨hexEncode raw, hexEncode_notNul raw⟩⟩ := by
  simp [tipRecord, Subtype.ext_iff]

theorem actioned_live {state : BonsaiChain.AgentRuntimeState} (hnamed : st.Named)
    (hfits : (runtimeRecord state).live = state) (bs raw : Bytes) (vout : UInt32) (txid : CString) :
    let next : BonsaiChain.AgentState :=
      { st.live with state, tip := ⟨some (hexEncode bs), vout, some (hexEncode raw)⟩ }
    (st.actioned next txid).Named ∧ (st.actioned next txid).live = next := by
  refine ⟨⟨hnamed.ricardianHash, hnamed.owner, hnamed.agentPubKey, hnamed.guardian,
    hnamed.ownValidator, hnamed.recovery, nofun, nofun⟩, ?_⟩
  unfold AgentState.actioned AgentState.logged AgentState.live
  simp only [hfits, tipRecord_live, Option.map_some]

theorem recovered_live {state : BonsaiChain.AgentRuntimeState} (hnamed : st.Named)
    (hfits : (runtimeRecord state).live = state) (key bs raw : Bytes) (vout : UInt32)
    (txid : CString) :
    let next : BonsaiChain.AgentState :=
      { st.live with
        agentPubKey := some (hexEncode key), state,
        tip := ⟨some (hexEncode bs), vout, some (hexEncode raw)⟩ }
    (st.recovered next txid).Named ∧ (st.recovered next txid).live = next := by
  refine ⟨⟨hnamed.ricardianHash, hnamed.owner, nofun, hnamed.guardian, hnamed.ownValidator,
    hnamed.recovery, nofun, nofun⟩, ?_⟩
  unfold AgentState.recovered AgentState.logged AgentState.live
  simp only [hfits, tipRecord_live, Option.map_some, cStr_hexEncode]

/-- A step writes a record that is read as the state it computed. -/
theorem AgentdCommand.Builds.step_live {op : AgentdOp} (hnamed : st.Named)
    (h : (AgentdCommand.step op).Builds P artifact st tx rawHex record)
    (hsend : chainBroadcastSend P woc rawHex = .ok op.args.txid) :
    record.Named ∧ agentdStep P artifact st.live op = .ok (tx, record.live)
      ∧ SpendsTip st.live op.args tx rawHex := by
  obtain ⟨bs, hbs⟩ : ∃ bs, op.args.txid = hexEncode bs := by
    obtain ⟨_, -, htxid⟩ := chainBroadcastSend_eq_ok hsend
    exact ⟨_, htxid⟩
  cases h with
  | @action _ _ _ _ _ a _ next _ hok hfits hraw =>
    obtain ⟨_, hspends, hnext⟩ := agentdStep_built hok
    obtain ⟨state, hstate⟩ : ∃ state, next.state = state := ⟨_, rfl⟩
    rw [hstate] at hnext hfits
    subst hnext
    obtain rfl := Option.some.inj hraw
    obtain ⟨raw, rfl⟩ := signAndBuild_hex hspends.signed
    have hlive := actioned_live hnamed hfits bs raw 0 a.txid
    rw [← hbs] at hlive
    exact ⟨hlive.1, hok.trans (congrArg (fun s => Except.ok (tx, s)) hlive.2.symm), hspends⟩
  | @recover newAgent _ a _ next _ hok hfits hraw =>
    obtain ⟨_, hspends, hnext⟩ := agentdStep_built hok
    obtain ⟨state, hstate⟩ : ∃ state, next.state = state := ⟨_, rfl⟩
    rw [hstate] at hnext hfits
    subst hnext
    obtain rfl := Option.some.inj hraw
    obtain ⟨raw, rfl⟩ := signAndBuild_hex hspends.signed
    have hlive := recovered_live hnamed hfits newAgent.1 bs raw 0 a.txid
    rw [← hbs] at hlive
    exact ⟨hlive.1, hok.trans (congrArg (fun s => Except.ok (tx, s)) hlive.2.symm), hspends⟩

/-- A deploy writes a record that is read as the state it computed. -/
theorem deployRecord_live {d : DeployArgs} {next : BonsaiChain.AgentState}
    (hok : cmdDeploy d = .ok (tx, next)) (hraw : next.tip.rawTxHex = some rawHex)
    (hsend : chainBroadcastSend P woc rawHex = .ok d.txid) (network : CStr)
    (counterparty : Block 33) :
    (deployRecord next d network counterparty).Named
      ∧ (deployRecord next d network counterparty).live = next := by
  obtain ⟨bs, hbs⟩ : ∃ bs, d.txid = hexEncode bs := by
    obtain ⟨_, -, htxid⟩ := chainBroadcastSend_eq_ok hsend
    exact ⟨_, htxid⟩
  simp only [cmdDeploy, bind_eq_ok, orFail_eq_ok, pure_eq_ok, Prod.mk.injEq] at hok
  obtain ⟨ricardianHash, hhash, script, -, b, -, rawHex', hsign, rfl, rfl⟩ := hok
  obtain ⟨raw, rfl⟩ := signAndBuild_hex hsign
  have hnul := hexNibble_ne_nul (decodeField_eq_ok hhash).1
  refine ⟨⟨Option.some_ne_none _, Option.some_ne_none _, Option.some_ne_none _,
    Option.some_ne_none _, Option.some_ne_none _, ?_, Option.some_ne_none _,
    Option.some_ne_none _⟩, ?_⟩
  · show 3 < 2 ^ 31
    decide
  unfold deployRecord AgentState.live
  rw [hbs]
  simp only [tipRecord_live, Option.map_some, cStr_hexEncode, deployRabinPub, List.map_cons,
    List.map_nil, cStr_bnToDec, Option.getD_some, cStr_eq_of_notMem hnul]
  rfl

theorem AgentdCommand.Builds.revoke_live {a : StepArgs} (hnamed : st.Named)
    (h : (AgentdCommand.revoke a).Builds P artifact st tx rawHex record) :
    record.Named ∧ record.live = st.live ∧ SpendsTip st.live a tx rawHex := by
  cases h with
  | revoke hok =>
    exact ⟨⟨hnamed.ricardianHash, hnamed.owner, hnamed.agentPubKey, hnamed.guardian,
      hnamed.ownValidator, hnamed.recovery, hnamed.txid, hnamed.rawTxHex⟩, rfl,
      cmdRevoke_built hok⟩

end Records

end BonsaiChain
