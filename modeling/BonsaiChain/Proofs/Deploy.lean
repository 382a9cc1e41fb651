import BonsaiChain.Deploy
import BonsaiChain.Proofs.CJsonPretty
import BonsaiChain.Proofs.Tx
import BonsaiChain.Proofs.TxBuilders
import BonsaiChain.Proofs.VerifyRicardian

/-!
# A deployed identity passes its audit

The sidecar that a run writes is read back as the signature it was made from, the variables that the
run and the audit share give both the same instance, and the wire keeps output 0 of the transaction.
So the two meet at the checks of the audit.
-/

namespace BonsaiChain

open CJson Lib

/-- A variable that must be set, as it is read. -/
def ScriptEnv.envRead {α : Type} (E : ScriptEnv) (read : CString → Except Err α) (name : String) :
    Except Err α :=
  E.envRequire name >>= read

namespace Deploy

section Parameters

variable {P : Prims} {S : Secp256k1} {E A : ScriptEnv} {p : AtlasDeploymentParams}

theorem envRead_eq_ok {α : Type} {read : CString → Except Err α} {name : String} {a : α} :
    E.envRead read name = .ok a ↔ ∃ v, E.envSet name = some v ∧ read v = .ok a := by
  simp only [ScriptEnv.envRead, bind_eq_ok, envRequire_eq_ok]

theorem asciiLower_of_hex {s : CString} (h : ∀ c ∈ s, (hexNibble c).isSome) :
    asciiLower s = hexToLower s := by
  have key : ∀ c : UInt8, (hexNibble c).isSome →
      (if 65 ≤ c ∧ c ≤ 90 then c - 65 + 97 else c)
        = if 65 ≤ c ∧ c ≤ 70 then c - 65 + 97 else c := by
    intro c h
    have hupper : 65 ≤ c ∧ c ≤ 90 ↔ 65 ≤ c ∧ c ≤ 70 := by
      unfold hexNibble at h
      simp only [UInt8.le_iff_toNat_le, UInt8.reduceToNat] at h ⊢
      split_ifs at h <;> first | omega | simp at h
    simp only [hupper]
  unfold asciiLower hexToLower
  exact List.map_congr_left fun c hc => key c (h c hc)

/-- What the deployment takes for a hash, the audit reads the same. -/
theorem parseHashEnv_read {name : String} {bs : Bytes} (h : parseHashEnv E name = .ok bs) :
    E.envRead hexDecodeLower name = .ok bs := by
  simp only [parseHashEnv, bind_eq_ok, envRequire_eq_ok] at h
  obtain ⟨val, hval, h⟩ := h
  split_ifs at h with hhex
  · have hdigits : ∀ c ∈ val, (hexNibble c).isSome := by
      simp only [isHexLen, Bool.and_eq_true, List.all_eq_true] at hhex
      exact hhex.2
    refine envRead_eq_ok.mpr ⟨val, hval, ?_⟩
    unfold hexDecodeLower
    rw [asciiLower_of_hex hdigits, h]

/-- The binding variables of an environment spell these parameters. -/
structure SpellsBinding (S : Secp256k1) (E : ScriptEnv) (p : AtlasDeploymentParams) : Prop where
  agent : ∃ pk, E.envRead (pubkeyHexToCompressed S) "AGENT_PUBKEY" = .ok pk ∧ p.agentPubkey = pk.1
  designated : E.envRead bnParseDec "DESIGNATED_VALIDATOR_RABIN_PUBKEY"
    = .ok p.designatedValidatorPubkey
  validator : E.envRead bnParseDec "VALIDATOR_RABIN_PUBKEY" = .ok p.validatorRabinPubkey
  target : E.envRead bnParseDec "MAX_SLASHING_TARGET" = .ok p.maxSlashingTarget
  confirmations : E.envRead bnParseDec "MIN_SLASH_CONFIRMATIONS" = .ok p.minSlashConfirmations
  checkpoint : E.envRead hexDecodeLower "INITIAL_SLASH_CHECKPOINT_HASH"
    = .ok p.initialSlashCheckpointHash

/-- Two environments whose binding variables are read alike, however they spell them. -/
structure SameBinding (S : Secp256k1) (E A : ScriptEnv) : Prop where
  agent : A.envRead (pubkeyHexToCompressed S) "AGENT_PUBKEY"
    = E.envRead (pubkeyHexToCompressed S) "AGENT_PUBKEY"
  integers : ∀ name ∈ ["DESIGNATED_VALIDATOR_RABIN_PUBKEY", "VALIDATOR_RABIN_PUBKEY",
    "MAX_SLASHING_TARGET", "MIN_SLASH_CONFIRMATIONS"],
    A.envRead bnParseDec name = E.envRead bnParseDec name
  checkpoint : A.envRead hexDecodeLower "INITIAL_SLASH_CHECKPOINT_HASH"
    = E.envRead hexDecodeLower "INITIAL_SLASH_CHECKPOINT_HASH"

theorem SpellsBinding.of_same (h : SpellsBinding S E p) (hsame : SameBinding S E A) :
    SpellsBinding S A p where
  agent := by rw [hsame.agent]; exact h.agent
  designated := by rw [hsame.integers _ (by simp)]; exact h.designated
  validator := by rw [hsame.integers _ (by simp)]; exact h.validator
  target := by rw [hsame.integers _ (by simp)]; exact h.target
  confirmations := by rw [hsame.integers _ (by simp)]; exact h.confirmations
  checkpoint := by rw [hsame.checkpoint]; exact h.checkpoint

theorem deployParams_spells {elder : EcdsaKey} {elderPk : Block 33}
    (h : deployParams P S E = .ok (elder, elderPk, p)) :
    elderKey P S E = .ok elder ∧ elder.pubkey = .ok elderPk ∧ p.elderPubkey = elderPk.1 ∧
      SpellsBinding S E p := by
  simp only [deployParams, bind_eq_ok, guard_eq_ok, pure_eq_ok, Prod.mk.injEq] at h
  obtain ⟨_, helder, _, hpub, target, htarget, confirmations, hconfirmations, -, -, agent, hagent,
    designated, hdesignated, validator, hvalidator, checkpoint, hcheckpoint, rfl, rfl, rfl⟩ := h
  exact ⟨helder, hpub, rfl, ⟨agent, hagent, rfl⟩, hdesignated, hvalidator, htarget, hconfirmations,
    parseHashEnv_read hcheckpoint⟩

/-- The audit reads the parameters that its variables spell. -/
theorem SpellsBinding.envAtlasParams_eq {elderPk : Block 33} (h : SpellsBinding S A p)
    (helder : A.envRead (pubkeyHexToCompressed S) "ELDER_PUBKEY" = .ok elderPk)
    (hp : p.elderPubkey = elderPk.1) : envAtlasParams S A = .ok p := by
  obtain ⟨elder, helderSet, helderRead⟩ := envRead_eq_ok.mp helder
  obtain ⟨agentPk, hagent, hagentPk⟩ := h.agent
  obtain ⟨agent, hagentSet, hagentRead⟩ := envRead_eq_ok.mp hagent
  obtain ⟨designated, hdesignatedSet, hdesignatedRead⟩ := envRead_eq_ok.mp h.designated
  obtain ⟨validator, hvalidatorSet, hvalidatorRead⟩ := envRead_eq_ok.mp h.validator
  obtain ⟨target, htargetSet, htargetRead⟩ := envRead_eq_ok.mp h.target
  obtain ⟨confirmations, hconfirmationsSet, hconfirmationsRead⟩ := envRead_eq_ok.mp h.confirmations
  obtain ⟨checkpoint, hcheckpointSet, hcheckpointRead⟩ := envRead_eq_ok.mp h.checkpoint
  simp only [envAtlasParams, bind_eq_ok, pure_eq_ok, orInval_eq_ok, envRequire_eq_ok]
  exact ⟨elder, helderSet, agent, hagentSet, designated, hdesignatedSet, validator, hvalidatorSet,
    target, htargetSet, confirmations, hconfirmationsSet, checkpoint, hcheckpointSet, elderPk,
    helderRead, agentPk, hagentRead, _, hdesignatedRead, _, hvalidatorRead, _, htargetRead, _,
    hconfirmationsRead, _, hcheckpointRead, by rw [← hp, ← hagentPk]⟩

/-- libsecp256k1 parses the public keys it has serialized. -/
def ParsesCreated (S : Secp256k1) : Prop :=
  ∀ secret pub, S.pubkeyCreate secret = some pub → S.pubkeyParse pub.1 = some pub

theorem ecdsaKeyFromBytes_pubkey {secret : Block 32} {key : EcdsaKey} {pub : Block 33}
    (h : ecdsaKeyFromBytes S secret = .ok key) (hpub : key.pubkey = .ok pub) :
    S.pubkeyCreate secret = some pub := by
  unfold ecdsaKeyFromBytes at h
  split_ifs at h
  · rw [← Except.ok.inj h] at hpub
    unfold orCrypto at hpub
    rcases hcreate : S.pubkeyCreate secret with _ | created
    · simp [hcreate] at hpub
    · simpa [hcreate] using hpub

theorem elderKey_parses {elder : EcdsaKey} {pub : Block 33} (hS : ParsesCreated S)
    (h : elderKey P S E = .ok elder) (hpub : elder.pubkey = .ok pub) :
    S.pubkeyParse pub.1 = some pub := by
  have hsecret : ∃ secret, ecdsaKeyFromBytes S secret = .ok elder := by
    unfold elderKey at h
    rcases hpriv : E.envSet "PRIVATE_KEY" with _ | priv
    · simp only [hpriv, bind_eq_ok, pure_eq_ok] at h
      obtain ⟨kf, -, -, -, ⟨key, compressed⟩, hwif, rfl⟩ := h
      unfold ecdsaKeyFromWif at hwif
      rcases hdecode : wifDecode P kf.wif.val with e | w
      · simp [hdecode] at hwif
      rcases hkey : ecdsaKeyFromBytes S w.secret with e | key'
      · simp [hdecode, hkey] at hwif
      · simp only [hdecode, hkey, Except.ok.injEq, Prod.mk.injEq] at hwif
        exact ⟨w.secret, by rw [hkey, hwif.1]⟩
    · simp only [hpriv, bind_eq_ok, guard_eq_ok] at h
      obtain ⟨w, -, -, hkey⟩ := h
      exact ⟨w.secret, hkey⟩
  obtain ⟨secret, hkey⟩ := hsecret
  exact hS secret pub (ecdsaKeyFromBytes_pubkey hkey hpub)

end Parameters

section Sidecar

variable {P : Prims} {S : Secp256k1} {E : ScriptEnv}

theorem stringItem_eq_ok {s : Option CStr} {item : Json} :
    stringItem s = .ok item ↔ ∃ text, s = some text ∧ item = .string text := by
  rcases s with _ | text
  · simp [stringItem]
  · simp [stringItem, eq_comm]

/-- The sidecar that was written is read as the signature it was made from. -/
theorem parseSigJson_buildSigJson {csig : CharterSignature} {text : CStr}
    (h : buildSigJson csig = .ok text) : parseSigJson text = .ok csig := by
  obtain ⟨algo, issuer, signature, rhash, ⟨agent, designated, validator, target, confirmations,
    checkpoint⟩⟩ := csig
  simp only [buildSigJson, sigJsonBinding, bind_eq_ok, pure_eq_ok, stringItem_eq_ok] at h
  obtain ⟨_, ⟨algo, rfl, rfl⟩, _, ⟨issuer, rfl, rfl⟩, _, ⟨signature, rfl, rfl⟩, _,
    ⟨rhash, rfl, rfl⟩,
    _, ⟨_, ⟨agent, rfl, rfl⟩, _, ⟨designated, rfl, rfl⟩, _, ⟨validator, rfl, rfl⟩, _,
    ⟨target, rfl, rfl⟩, _, ⟨confirmations, rfl, rfl⟩, _, ⟨checkpoint, rfl, rfl⟩, rfl⟩, h⟩ := h
  let binding : Entry 999 1 := .object (cStr (ascii "binding"))
    (.string (cStr (ascii "agentPubKey")) agent)
    [.string (cStr (ascii "designatedValidatorPubKey")) designated,
      .string (cStr (ascii "validatorRabinPubKey")) validator,
      .string (cStr (ascii "maxSlashingTarget")) target,
      .string (cStr (ascii "minSlashConfirmations")) confirmations,
      .string (cStr (ascii "initialSlashCheckpointHash")) checkpoint]
  have hparse := parse_jsonPrintPretty2Nl (.string (cStr (ascii "algo")) algo)
    [.string (cStr (ascii "issuerPubKey")) issuer, .string (cStr (ascii "signature")) signature,
      .string (cStr (ascii "ricardianHash")) rhash, binding] h
  unfold parseSigJson
  rw [hparse]
  rfl

theorem prepareCharter_eq_ok {c : PreparedCharter} (h : prepareCharter P S E = .ok c) :
    ∃ p artifact charter, deployParams P S E = .ok (c.elder, c.elderPk, p) ∧
      E.readFileText "legal/ricardian-prose.md" = .ok c.prose ∧
      E.loadArtifact (E.path "artifacts/ricardianTea.json") = .ok artifact ∧
      parseCharterParams c.prose = .ok charter ∧
      c.inst.inst = atlasContract P c.prose p charter artifact ∧
      signCharter P c.prose p.binding c.elder = .ok c.csig
        ∧ buildSigJson c.csig = .ok c.sigText := by
  simp only [prepareCharter, bind_eq_ok, pure_eq_ok, buildAtlasInstance_eq_ok] at h
  obtain ⟨⟨elder, elderPk, p⟩, hp, prose, hprose, artifact, hartifact, _, ⟨charter, hcharter, rfl⟩,
    csig, hsign, sigText, hsidecar, rfl⟩ := h
  exact ⟨p, artifact, charter, hp, hprose, hartifact, hcharter, rfl, hsign, hsidecar⟩

theorem identityScript_eq_ok {c : PreparedCharter} {script : Bytes} :
    identityScript P S c = .ok script ↔
      (∃ pub, c.csig.Valid P S c.prose pub)
        ∧ ricardianTeaLockingScript c.inst.inst true = .ok script := by
  unfold identityScript
  rw [error_ite_eq_ok, ← verifyCharterSignature_eq_none]
  simp

/-- A sidecar that is valid under some key is valid under the signer's, once that is parsed. -/
theorem valid_of_signCharter {b : DeploymentBinding} {prose : CStr} {elder : EcdsaKey}
    {csig : CharterSignature} {pub pub' : Block 33} (hparse : S.pubkeyParse pub.1 = some pub)
    (hpub : elder.pubkey = .ok pub) (hsign : signCharter P prose b elder = .ok csig)
    (hv : csig.Valid P S prose pub') : csig.Valid P S prose pub := by
  obtain ⟨der, pub₀, -, hpub₀, rfl⟩ := signCharter_eq_ok.mp hsign
  obtain rfl : pub = pub₀ := Except.ok.inj (hpub.symm.trans hpub₀)
  obtain ⟨hex, hhex, hread⟩ := hv.issuer
  rw [← Option.some.inj hhex, ecdsaPubkeyToHex, cStr_hexEncode] at hread
  obtain rfl : pub = pub' := Except.ok.inj ((ecdsaPubkeyFromHex_toHex hparse).symm.trans hread)
  exact hv

end Sidecar

section Transaction

variable {P : Prims} {E : ScriptEnv}

theorem map_modify_of_eq {α β : Type} {f : α → α} {g : α → β} (h : ∀ a, g (f a) = g a) :
    ∀ (k : ℕ) (as : List α), (as.modify k f).map g = as.map g
  | _, [] => by simp
  | 0, a :: as => by simp [h]
  | k + 1, a :: as => by simp [map_modify_of_eq h k as]

/-- Signing keeps the outputs and what is spent. -/
theorem contractSignFundingInputs_keeps : ∀ {fs : List ContractFundingInput} {b b' : Tx},
    contractSignFundingInputs P b fs = .ok b' →
      b'.outputs = b.outputs ∧
        b'.inputs.map (·.prevTxidDisplay) = b.inputs.map (·.prevTxidDisplay)
  | [], b, b', h => by
    obtain rfl : b = b' := Except.ok.inj h
    exact ⟨rfl, rfl⟩
  | f :: fs, b, b', h => by
    simp only [contractSignFundingInputs, bind_eq_ok] at h
    obtain ⟨ss, -, b₁, hset, hrest⟩ := h
    obtain ⟨houtputs, htxids⟩ := contractSignFundingInputs_keeps hrest
    unfold setScriptSig at hset
    split_ifs at hset
    rw [houtputs, htxids, ← Except.ok.inj hset]
    exact ⟨rfl, map_modify_of_eq (g := fun i : TxIn => i.prevTxidDisplay)
      (f := fun i => { i with scriptSig := ss }) (fun _ => rfl) f.inputIndex b.inputs⟩

theorem deployTx_eq_ok {funding : List FundingUtxo} {script : Bytes} {change : Block 20}
    {fee : Int64} {tx : Tx} (h : deployTx funding script change fee = .ok tx) :
    tx.inputs = funding.map fundingInput ∧ tx.outputs[0]? = some ⟨identitySats, script⟩ := by
  simp only [deployTx, bind_eq_ok] at h
  obtain ⟨⟨b, total⟩, hadd, h⟩ := h
  obtain ⟨rfl, -⟩ := addFunding_eq_ok hadd
  split_ifs at h
  · rw [← pure_eq_ok.mp h]
    simp [txBuilderInit, txBuilderAddOutput]
  · rw [← pure_eq_ok.mp h]
    simp [txBuilderInit, txBuilderAddOutput]

/-- Output 0 of what was broadcast is the genesis script, as the bytes are read. -/
theorem deployLive_output {woc : Except Err WocClient} {c : PreparedCharter} {script : Bytes}
    {sent : Broadcast} (h : deployLive P E woc c script = .ok sent) :
    ∃ tx, txDeserialize sent.rawHex = .ok tx ∧ tx.outputs[0]? = some ⟨identitySats, script⟩ := by
  simp only [deployLive, buildContractDeploy, txBuilderBuildHex, bind_eq_ok, pure_eq_ok,
    map_eq_ok] at h
  obtain ⟨_, -, _, -, _, -, funding, -, unsigned, hunsigned, _, ⟨tx, hsign, raw, hraw, rfl⟩, _, -,
    rfl⟩ := h
  obtain ⟨hinputs, houtput⟩ := deployTx_eq_ok hunsigned
  obtain ⟨houtputs, htxids⟩ := contractSignFundingInputs_keeps hsign
  have hlow : ∀ i ∈ tx.inputs, hexToLower i.prevTxidDisplay = i.prevTxidDisplay := by
    intro i hi
    have hmem := List.mem_map_of_mem (f := fun i : TxIn => i.prevTxidDisplay) hi
    rw [htxids, hinputs, List.map_map] at hmem
    obtain ⟨u, -, heq⟩ := List.mem_map.mp hmem
    rw [← heq]
    exact hexToLower_hexToLower u.txId
  exact ⟨tx, txDeserialize_of_lower hraw hlow, by rw [houtputs, houtput]⟩

end Transaction

section Audit

variable {P : Prims} {S : Secp256k1} {E A : ScriptEnv}
  {writeFile : CString → CString → Except Err Unit}
  {client : Except Err WocClient} {sent : Broadcast}

/-- The environment of an audit of what a run in the environment `E` has deployed: the same prose,
artifact and binding variables, the sidecar that was written, the Elder's key and the txid. -/
structure AuditsDeployment (P : Prims) (S : Secp256k1) (E A : ScriptEnv) (sidecar : CStr)
    (txid : CString) : Prop where
  prose : A.readFileText "legal/ricardian-prose.md" = E.readFileText "legal/ricardian-prose.md"
  sidecarExists : A.pathExists (A.path sigRel) = true
  sidecar : A.readFileText sigRel = .ok sidecar
  artifact : A.loadArtifact (A.path "artifacts/ricardianTea.json")
    = E.loadArtifact (E.path "artifacts/ricardianTea.json")
  elder : A.envRead (pubkeyHexToCompressed S) "ELDER_PUBKEY"
    = elderKey P S E >>= EcdsaKey.pubkey
  binding : SameBinding S E A
  kind : A.getenv "IDENTITY_KIND" = none
  txid : A.envSet "VERIFY_IDENTITY_TXID" = some txid

/-- What a run has passed when it has broadcast. -/
theorem deployRun_broadcast
    (h : (deployRun P S E writeFile client).outcome = .ok (some sent)) :
    ∃ c script, prepareCharter P S E = .ok c ∧
      (deployRun P S E writeFile client).sidecar = some c.sigText ∧
      identityScript P S c = .ok script ∧ deployLive P E client c script = .ok sent := by
  unfold deployRun at h ⊢
  rcases hc : prepareCharter P S E with e | c
  · simp [hc] at h
  rcases hwrite : writeFile (E.path "legal/ricardian-prose.sig") c.sigText.val with e | _
  · simp [hc, hwrite] at h
  simp only [hc, hwrite, bind_eq_ok] at h
  obtain ⟨script, hscript, h⟩ := h
  split_ifs at h
  · simp only [bind_eq_ok, pure_eq_ok, Option.some.injEq] at h
    obtain ⟨sent, hsent, rfl⟩ := h
    exact ⟨c, script, rfl, by simp only [hwrite], hscript, hsent⟩
  · simp [pure_eq_ok] at h

/-- The other way round: a run that passes them broadcasts. -/
theorem deployRun_sends {c : PreparedCharter} {script : Bytes} (hc : prepareCharter P S E = .ok c)
    (hwrite : writeFile (E.path "legal/ricardian-prose.sig") c.sigText.val = .ok ())
    (hscript : identityScript P S c = .ok script) (hconfirm : E.confirmMainnetBroadcast = true)
    (hlive : deployLive P E client c script = .ok sent) :
    (deployRun P S E writeFile client).outcome = .ok (some sent) := by
  unfold deployRun
  simp only [hc, hwrite, hscript, hconfirm, if_true, bind_eq_ok, pure_eq_ok]
  exact ⟨script, rfl, sent, hlive, rfl⟩

theorem identityKind_unset (h : A.getenv "IDENTITY_KIND" = none) :
    identityKind A ≠ ascii "agenttea" := by
  unfold identityKind ScriptEnv.envOr ScriptEnv.envSet
  rw [h]
  decide

/-- What a run has deployed passes every check of an audit of it. -/
theorem deployRun_audited {sidecar : CStr} {woc : WocNetwork → Except Err ChainSource}
    {source : ChainSource} (hS : ParsesCreated S)
    (hrun : (deployRun P S E writeFile client).outcome = .ok (some sent))
    (hsidecar : (deployRun P S E writeFile client).sidecar = some sidecar)
    (haudit : AuditsDeployment P S E A sidecar sent.txid)
    (hwoc : woc (wocNetwork A) = .ok source)
    (hraw : source.getRawTx sent.txid = .ok (some sent.rawHex)) :
    ∃ elder prose sig pub c o, A.envSet "ELDER_PUBKEY" = some elder ∧
      Audited P S A woc elder sent.txid prose sig pub c o ∧
      ∃ tx, txDeserialize sent.rawHex = .ok tx ∧ tx.outputs[0]? = some o := by
  obtain ⟨c, script, hc, hwritten, hscript, hlive⟩ := deployRun_broadcast hrun
  obtain rfl : c.sigText = sidecar := Option.some.inj (hwritten.symm.trans hsidecar)
  obtain ⟨p, artifact, charter, hp, hprose, hartifact, hcharter, hinst, hsign, hsig⟩ :=
    prepareCharter_eq_ok hc
  obtain ⟨helder, hpub, helderPk, hspells⟩ := deployParams_spells hp
  obtain ⟨⟨pub, hvalid⟩, hgenesis⟩ := identityScript_eq_ok.mp hscript
  obtain ⟨tx, htx, ho⟩ := deployLive_output hlive
  have hread : A.envRead (pubkeyHexToCompressed S) "ELDER_PUBKEY" = .ok c.elderPk := by
    rw [haudit.elder, helder]
    exact hpub
  obtain ⟨elder, helderSet, hpinned⟩ := envRead_eq_ok.mp hread
  have hinstance := (ricardianteaInstance_eq_ok (P := P)).mpr ⟨p, artifact, charter,
    (hspells.of_same haudit.binding).envAtlasParams_eq hread helderPk,
    haudit.artifact.trans hartifact,
    hcharter, rfl⟩
  have hrebuilt : rebuiltIdentity P S A c.prose = .ok (.ricardianTea c.inst.inst) := by
    unfold rebuiltIdentity
    rw [if_neg (identityKind_unset haudit.kind), hinstance, hinst]
    rfl
  have haudited : Audited P S A woc elder sent.txid c.prose c.csig c.elderPk
      (.ricardianTea c.inst.inst) ⟨identitySats, script⟩ :=
    { text := haudit.prose.trans hprose
      policy := rebuiltIdentity_policy hrebuilt
      sidecar := ⟨haudit.sidecarExists, _, haudit.sidecar, parseSigJson_buildSigJson hsig⟩
      valid := valid_of_signCharter (elderKey_parses hS helder hpub) hpub hsign hvalid
      pinned := hpinned
      rebuilt := hrebuilt
      onChain := ⟨source, hwoc, _, tx, hraw, htx, ho⟩
      script := hgenesis }
  exact ⟨elder, c.prose, c.csig, c.elderPk, _, _, helderSet, haudited, tx, htx, ho⟩

/-- An audit of what a run has deployed exits with 0, and output 0 of the transaction that was
broadcast is the locking script it rebuilds. -/
theorem deploy_auditable {sidecar : CStr} {woc : WocNetwork → Except Err ChainSource}
    {source : ChainSource} (hS : ParsesCreated S)
    (hrun : (deployRun P S E writeFile client).outcome = .ok (some sent))
    (hsidecar : (deployRun P S E writeFile client).sidecar = some sidecar)
    (haudit : AuditsDeployment P S E A sidecar sent.txid)
    (hwoc : woc (wocNetwork A) = .ok source)
    (hraw : source.getRawTx sent.txid = .ok (some sent.rawHex)) :
    verifyRicardianRun P S A woc = .ok 0 ∧
      ∃ prose tx o, A.readFileText "legal/ricardian-prose.md" = .ok prose ∧
        txDeserialize sent.rawHex = .ok tx ∧ tx.outputs[0]? = some o ∧
        expectedScriptHex P S A prose = .ok (hexEncode o.script) := by
  obtain ⟨elder, prose, sig, pub, c, o, helder, h, tx, htx, ho⟩ :=
    deployRun_audited hS hrun hsidecar haudit hwoc hraw
  exact ⟨h.run_eq_zero helder haudit.txid, prose, tx, o, h.text, htx, ho,
    expectedScriptHex_eq_ok.mpr ⟨c, o.script, h.rebuilt, h.script, rfl⟩⟩

end Audit

section Example

/-- The deterministic signature of the funding input under the secret 1. -/
def exampleFundingDer : Bytes :=
  [0x30, 0x44, 0x02, 0x20, 0x07, 0x42, 0x59, 0x39, 0x3b, 0xde, 0xc7, 0x31, 0x18, 0xbc, 0x6d, 0x77,
   0xd3, 0x8b, 0xc8, 0x31, 0x8b, 0xd5, 0x16, 0xfd, 0x6c, 0xed, 0xdd, 0x95, 0x12, 0x40, 0xfb, 0x41,
   0xa5, 0xd6, 0x9d, 0x93, 0x02, 0x20, 0x0b, 0x18, 0x7f, 0xea, 0x61, 0xa2, 0xed, 0x75, 0x6c, 0x0d,
   0x90, 0x9e, 0x95, 0xe9, 0x9d, 0x26, 0x4a, 0x47, 0xb0, 0x50, 0xa5, 0x05, 0x6f, 0xae, 0x56, 0x96,
   0x19, 0xc4, 0x13, 0x59, 0x12, 0x1c]

def exampleDeploySecp : Secp256k1 :=
  { exampleSecp with
    sign := fun digest _ =>
      some (if digest = exampleDigest then exampleDer else exampleFundingDer) }

def exampleDeployVars : List (String × CString) :=
  [("PRIVATE_KEY", ascii "KwDiBf89QgGbjEhKnhXJuH7LrciVrZi3qYjgd9M7rFU73sVHnoWn"),
    ("AGENT_PUBKEY", hexEncode exampleAgentPubkey.1),
    ("DESIGNATED_VALIDATOR_RABIN_PUBKEY", ascii "21"), ("VALIDATOR_RABIN_PUBKEY", ascii "77"),
    ("MAX_SLASHING_TARGET", ascii "9"), ("MIN_SLASH_CONFIRMATIONS", ascii "6"),
    ("INITIAL_SLASH_CHECKPOINT_HASH", List.replicate 64 48),
    ("CONFIRM_MAINNET_BROADCAST", ascii "yes")]

def exampleDeployEnv : ScriptEnv where
  argv1 := none
  getenv name := exampleDeployVars.lookup name
  pathExists _ := true
  readFile _ := .ok exampleProse.val
  loadArtifact _ := .ok exampleArtifact

def exampleWocClient : WocClient where
  listUtxos _ := .ok [⟨List.replicate 64 50, 0, 5000, 1⟩]
  feePerKb := .ok 50
  post _ := .ok ()

/-- The signed transaction: the genesis script at one satoshi, then the change. -/
def exampleDeployTx : Tx where
  version := 1
  inputs := [⟨List.replicate 64 50, 0,
    71 :: exampleFundingDer ++ 0x41 :: 33 :: exampleIssuerPubkey.1,
    0xffffffff⟩]
  outputs := [⟨1, 33 :: exampleIssuerPubkey.1 ++ 32 :: exampleDigest.1⟩,
    ⟨4928, buildP2pkhScript (hash160 exampleIssuerPubkey.1)⟩]
  locktime := 0

def exampleSent : Broadcast where
  rawHex := hexEncode (txBytes exampleDeployTx)
  txid := hexEncode (hashOf 0xdea54dd28b67e07fd5dfdd17f74c6598ce043fef4b75b63e03e40b91a2bbc65e).1

def exampleElder : EcdsaKey where
  pubkey := .ok exampleIssuerPubkey
  signLowS digest := .ok (if digest = exampleDigest then exampleDer else exampleFundingDer)

def exampleDeployParams : AtlasDeploymentParams :=
  { exampleAtlasParams with minSlashConfirmations := 6 }

/-- The contract that the run deploys. -/
def exampleDeployed : RicardianTea :=
  let params := atlasParams exampleDeployParams ⟨5, 9, 60, 3, 4⟩ exampleDigest.1
  ⟨exampleArtifact, params, ricardianTeaGenesisState params⟩

/-- What the run reads from its variables. -/
theorem exampleDeployEnv_reads :
    (exampleDeployEnv.envSet "PRIVATE_KEY"
        = some (ascii "KwDiBf89QgGbjEhKnhXJuH7LrciVrZi3qYjgd9M7rFU73sVHnoWn") ∧
      exampleDeployEnv.confirmMainnetBroadcast = true) ∧
    (parseBigintEnv exampleDeployEnv "MAX_SLASHING_TARGET" = .ok 9 ∧
      parseBigintEnv exampleDeployEnv "MIN_SLASH_CONFIRMATIONS" = .ok 6) ∧
    (parsePubkeyEnv exampleDeploySecp exampleDeployEnv "AGENT_PUBKEY" = .ok exampleAgentPubkey ∧
      parseBigintEnv exampleDeployEnv "DESIGNATED_VALIDATOR_RABIN_PUBKEY" = .ok 21) ∧
    parseBigintEnv exampleDeployEnv "VALIDATOR_RABIN_PUBKEY" = .ok 77 ∧
      parseHashEnv exampleDeployEnv "INITIAL_SLASH_CHECKPOINT_HASH"
        = .ok (List.replicate 32 0) := by
  decide +kernel

theorem elderKey_example :
    elderKey codePrims exampleDeploySecp exampleDeployEnv = .ok exampleElder := by
  have hwif : ∃ w, wifDecode codePrims
      (ascii "KwDiBf89QgGbjEhKnhXJuH7LrciVrZi3qYjgd9M7rFU73sVHnoWn") = .ok w
        ∧ w.net = .mainnet := by
    decide +kernel
  obtain ⟨w, hw, hnet⟩ := hwif
  unfold elderKey
  simp only [exampleDeployEnv_reads.1.1, bind_eq_ok, guard_eq_ok]
  exact ⟨w, hw, by simp [hnet], rfl⟩

theorem deployParams_example : deployParams codePrims exampleDeploySecp exampleDeployEnv
    = .ok (exampleElder, exampleIssuerPubkey, exampleDeployParams) := by
  obtain ⟨-, ⟨htarget, hconfirmations⟩, ⟨hagent, hdesignated⟩, hvalidator, hcheckpoint⟩ :=
    exampleDeployEnv_reads
  simp only [deployParams, bind_eq_ok, guard_eq_ok, pure_eq_ok]
  exact ⟨exampleElder, elderKey_example, exampleIssuerPubkey, rfl, 9, htarget, 6, hconfirmations,
    by decide, by decide, exampleAgentPubkey, hagent, 21, hdesignated, 77, hvalidator,
    List.replicate 32 0, hcheckpoint, rfl⟩

/-- The binding that is signed, and the genesis script. -/
theorem exampleDeployed_values :
    exampleDeployParams.binding = exampleBinding ∧
      ricardianTeaLockingScript exampleDeployed true
        = .ok (33 :: exampleIssuerPubkey.1 ++ 32 :: exampleDigest.1) := by
  decide +kernel

theorem signCharter_example :
    signCharter codePrims exampleProse exampleBinding exampleElder = .ok exampleSig := by
  refine signCharter_eq_ok.mpr ⟨exampleDer, exampleIssuerPubkey, ?_, rfl, ?_⟩
  · rw [sha256_exampleContract]
    rfl
  · rw [sha256_exampleContract]
    rfl

/-- A signature without an absent field has a sidecar. -/
theorem buildSigJson_of_some {algo issuer signature rhash agent designated validator target
    confirmations checkpoint : CStr} :
    ∃ text, buildSigJson ⟨algo, issuer, signature, rhash,
      ⟨agent, designated, validator, target, confirmations, checkpoint⟩⟩ = .ok text :=
  ⟨_, rfl⟩

theorem exampleSig_sidecar : ∃ text, buildSigJson exampleSig = .ok text := buildSigJson_of_some

/-- What the run has prepared, but for the text of the sidecar. -/
def examplePrepared (sigText : CStr) : PreparedCharter where
  elder := exampleElder
  elderPk := exampleIssuerPubkey
  prose := exampleProse
  inst := ⟨exampleDeployed, hexEncode exampleDigest.1, exampleBinding, ⟨5, 9, 60, 3, 4⟩⟩
  csig := exampleSig
  sigText := sigText

theorem prepareCharter_example {sigText : CStr} (h : buildSigJson exampleSig = .ok sigText) :
    prepareCharter codePrims exampleDeploySecp exampleDeployEnv
      = .ok (examplePrepared sigText) := by
  have hprose : exampleDeployEnv.readFileText "legal/ricardian-prose.md" = .ok exampleProse :=
    congrArg Except.ok (cStr_val exampleProse)
  have hinst : buildAtlasInstance codePrims exampleProse exampleDeployParams exampleArtifact
      = .ok (examplePrepared sigText).inst := by
    refine buildAtlasInstance_eq_ok.mpr ⟨⟨5, 9, 60, 3, 4⟩, exampleProse_charter, ?_⟩
    unfold atlasContract
    rw [exampleDeployed_values.1, sha256_exampleContract]
    rfl
  simp only [prepareCharter, bind_eq_ok, pure_eq_ok]
  exact ⟨_, deployParams_example, exampleProse, hprose, exampleArtifact, rfl, _, hinst, exampleSig,
    signCharter_example, sigText, h, rfl⟩

theorem identityScript_example {sigText : CStr} :
    identityScript codePrims exampleDeploySecp (examplePrepared sigText)
      = .ok (33 :: exampleIssuerPubkey.1 ++ 32 :: exampleDigest.1) := by
  exact identityScript_eq_ok.mpr ⟨⟨exampleIssuerPubkey, exampleSig_valid.of_verdicts rfl rfl⟩,
    exampleDeployed_values.2⟩

def exampleFunding : List FundingUtxo := [⟨List.replicate 64 50, 0, 5000⟩]

theorem deployLive_example {sigText : CStr} :
    deployLive codePrims exampleDeployEnv (.ok exampleWocClient) (examplePrepared sigText)
      (33 :: exampleIssuerPubkey.1 ++ 32 :: exampleDigest.1) = .ok exampleSent := by
  have hchange : changeH160 codePrims exampleDeployEnv
      (hash160 exampleIssuerPubkey.1)
        = .ok (hash160 exampleIssuerPubkey.1) := by decide +kernel
  have hfee : chainBroadcastFeeWindow
      (Int64.ofNat (33 :: exampleIssuerPubkey.1 ++ 32 :: exampleDigest.1).length + 1000)
      (deployFeePerKb exampleDeployEnv exampleWocClient) = .ok ⟨54, 162, 71⟩ := by decide +kernel
  have hfunding : chainBroadcastSelectFunding exampleWocClient
      (addressFromHash160 codePrims (hash160 exampleIssuerPubkey.1)
        .mainnet) (1 + 71) = .ok exampleFunding := by decide +kernel
  have htx : deployTx exampleFunding (33 :: exampleIssuerPubkey.1 ++ 32 :: exampleDigest.1)
      (hash160 exampleIssuerPubkey.1) 71
        = .ok { exampleDeployTx with inputs := exampleFunding.map fundingInput } := by
    decide +kernel
  have hsigned : buildContractDeploy codePrims
        { exampleDeployTx with inputs := exampleFunding.map fundingInput }
        (deployFunding exampleElder
          (buildP2pkhScript (hash160 exampleIssuerPubkey.1)) exampleFunding)
      = .ok exampleSent.rawHex := by decide +kernel
  have htxid : chainBroadcastSend codePrims exampleWocClient exampleSent.rawHex
      = .ok exampleSent.txid := by decide +kernel
  simp only [deployLive, bind_eq_ok, pure_eq_ok]
  exact ⟨_, hchange, exampleWocClient, rfl, _, hfee, exampleFunding, hfunding, _, htx, _,
    hsigned, _, htxid, rfl⟩

example : fundingTotal exampleFunding = outTotal exampleDeployTx.outputs + 71 := by decide +kernel

theorem exampleRun_sends : (deployRun codePrims exampleDeploySecp exampleDeployEnv
    (fun _ _ => .ok ()) (.ok exampleWocClient)).outcome = .ok (some exampleSent) := by
  obtain ⟨sigText, hsigText⟩ := exampleSig_sidecar
  exact deployRun_sends (prepareCharter_example hsigText) rfl identityScript_example
    exampleDeployEnv_reads.1.2 deployLive_example

/-- The variables of the audit spell the integers with zeros in front and the Elder's key in upper
case. -/
def exampleAuditorVars : List (String × CString) :=
  [("ELDER_PUBKEY", (hexEncode exampleIssuerPubkey.1).map fun c => if 97 ≤ c then c - 32 else c),
    ("VERIFY_IDENTITY_TXID", exampleSent.txid),
    ("AGENT_PUBKEY", hexEncode exampleAgentPubkey.1),
    ("DESIGNATED_VALIDATOR_RABIN_PUBKEY", ascii "021"), ("VALIDATOR_RABIN_PUBKEY", ascii "0077"),
    ("MAX_SLASHING_TARGET", ascii "09"), ("MIN_SLASH_CONFIRMATIONS", ascii "06"),
    ("INITIAL_SLASH_CHECKPOINT_HASH", List.replicate 64 48)]

def exampleAuditorEnv (sidecar : CStr) : ScriptEnv where
  argv1 := none
  getenv name := exampleAuditorVars.lookup name
  pathExists _ := true
  readFile path := .ok (if path = ascii "./legal/ricardian-prose.sig" then sidecar.val
    else exampleProse.val)
  loadArtifact _ := .ok exampleArtifact

theorem exampleAuditorEnv_audits (sidecar : CStr) :
    AuditsDeployment codePrims exampleDeploySecp exampleDeployEnv
      (exampleAuditorEnv sidecar) sidecar exampleSent.txid := by
  obtain ⟨hprose, hsidecar⟩ :=
    readFileText_checkout (E := exampleAuditorEnv sidecar) rfl fun _ => rfl
  rw [cStr_val] at hsidecar
  -- The variables do not depend on the sidecar.
  obtain ⟨helder, hagent, hintegers, hcheckpoint, htxid⟩ :
      (exampleAuditorEnv (cStr [])).envRead (pubkeyHexToCompressed exampleDeploySecp) "ELDER_PUBKEY"
          = .ok exampleIssuerPubkey ∧
        (exampleAuditorEnv (cStr [])).envRead (pubkeyHexToCompressed exampleDeploySecp)
            "AGENT_PUBKEY"
          = exampleDeployEnv.envRead (pubkeyHexToCompressed exampleDeploySecp) "AGENT_PUBKEY" ∧
        (∀ name ∈ ["DESIGNATED_VALIDATOR_RABIN_PUBKEY", "VALIDATOR_RABIN_PUBKEY",
            "MAX_SLASHING_TARGET", "MIN_SLASH_CONFIRMATIONS"],
          (exampleAuditorEnv (cStr [])).envRead bnParseDec name
            = exampleDeployEnv.envRead bnParseDec name) ∧
        (exampleAuditorEnv (cStr [])).envRead hexDecodeLower "INITIAL_SLASH_CHECKPOINT_HASH"
          = exampleDeployEnv.envRead hexDecodeLower "INITIAL_SLASH_CHECKPOINT_HASH" ∧
        (exampleAuditorEnv (cStr [])).envSet "VERIFY_IDENTITY_TXID" = some exampleSent.txid := by
    decide +kernel
  exact {
    prose := hprose.trans (congrArg Except.ok (cStr_val exampleProse)).symm
    sidecarExists := rfl
    sidecar := hsidecar
    artifact := rfl
    elder := by
      rw [elderKey_example]
      exact helder
    binding := ⟨hagent, hintegers, hcheckpoint⟩
    kind := rfl
    txid := htxid }

def exampleDeploySource : ChainSource where
  getRawTx txid := .ok (if txid = exampleSent.txid then some exampleSent.rawHex else none)
  getTime _ := .error .enet
  getSpendingTxid _ _ := .error .enet

theorem deploy_auditable_example : ∃ sidecar,
    (deployRun codePrims exampleDeploySecp exampleDeployEnv (fun _ _ => .ok ())
      (.ok exampleWocClient)).sidecar = some sidecar ∧
    verifyRicardianRun codePrims exampleDeploySecp (exampleAuditorEnv sidecar)
      (fun _ => .ok exampleDeploySource) = .ok 0 := by
  obtain ⟨c, script, -, hsidecar, -, -⟩ := deployRun_broadcast exampleRun_sends
  have hparses : ParsesCreated exampleDeploySecp := by
    intro secret pub h
    rw [← Option.some.inj h]
    rfl
  exact ⟨c.sigText, hsidecar, (deploy_auditable hparses exampleRun_sends hsidecar
    (exampleAuditorEnv_audits c.sigText) rfl (by simp [exampleDeploySource])).1⟩

end Example

end Deploy

end BonsaiChain
