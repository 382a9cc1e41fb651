import BonsaiChain.Proofs.RicardianCharter
import BonsaiChain.VerifyRicardian

/-!
# What an accepted audit has established

Exit code 0 says that the sidecar is the Elder's signature over the prose, and that output 0 of the
named transaction is the locking script the prose and the environment give. It does not say that the
two name one ricardian hash: the sidecar is verified over its own binding, and the script is rebuilt
from the environment.
-/

namespace BonsaiChain

open CJson Lib

/-- The identity contracts an audit rebuilds. -/
inductive IdentityContract where
  | ricardianTea (c : RicardianTea)
  | agentTea (c : AgentTea)

namespace IdentityContract

def genesisScript : IdentityContract → Except Err Bytes
  | ricardianTea c => ricardianTeaLockingScript c true
  | agentTea c => agentTeaLockingScript c true

/-- The five policy arguments of the constructor. -/
def policy : IdentityContract → CharterParams
  | ricardianTea c => ⟨c.params.perTxLimit, c.params.dailyLimit, c.params.windowDuration,
      c.params.graduationThreshold, c.params.validatorThreshold⟩
  | agentTea c => ⟨c.params.perTxLimit, c.params.dailyLimit, c.params.windowDuration,
      c.params.graduationThreshold, c.params.validatorThreshold⟩

def ricardianHash : IdentityContract → Bytes
  | ricardianTea c => c.params.ricardianHash
  | agentTea c => c.params.ricardianHash

end IdentityContract

section Rebuild

variable (P : Prims) (S : Secp256k1) (E : ScriptEnv)

/-- The contract behind the script that an audit expects. -/
def rebuiltIdentity (prose : CStr) : Except Err IdentityContract :=
  if identityKind E = ascii "agenttea" then (agentteaInstance S E prose).map .agentTea
  else (ricardianteaInstance S E P prose).map fun out => .ricardianTea out.inst

variable {P S E} {prose : CStr}

theorem map_eq_ok {α β : Type} {x : Except Err α} {f : α → β} {b : β} :
    x.map f = .ok b ↔ ∃ a, x = .ok a ∧ f a = b := by
  rcases x with e | a
  · simp [Except.map]
  · simp [Except.map]

theorem mapError_eq_ok {α ε ε' : Type} {x : Except ε α} {f : ε → ε'} {a : α} :
    x.mapError f = .ok a ↔ x = .ok a := by
  rcases x with e | a'
  · simp [Except.mapError]
  · simp [Except.mapError]

theorem orInval_eq_ok {α : Type} {x : Except Err α} {a : α} : orInval x = .ok a ↔ x = .ok a := by
  rcases x with e | a'
  · simp [orInval]
  · simp [orInval]

theorem envRequire_eq_ok {name : String} {v : CString} :
    E.envRequire name = .ok v ↔ E.envSet name = some v := by
  unfold ScriptEnv.envRequire
  rcases E.envSet name with _ | v'
  · simp
  · simp

/-- What an AgentTea instance takes from the prose and from `RICARDIAN_HASH`. -/
theorem agentteaInstance_eq_ok {c : AgentTea} (h : agentteaInstance S E prose = .ok c) :
    parseCharterParams prose = .ok (IdentityContract.agentTea c).policy ∧
      ∃ rhash, E.envSet "RICARDIAN_HASH" = some rhash ∧
        hexDecodeLower rhash = .ok c.params.ricardianHash := by
  simp only [agentteaInstance, bind_eq_ok, pure_eq_ok, mapError_eq_ok, orInval_eq_ok,
    envRequire_eq_ok] at h
  obtain ⟨-, -, -, -, rhash, hrhash, -, -, -, -, -, -, -, -, charter, hcharter, -, -, -, -, -,
    -, -, -,
    hash, hhash, -, -, -, -, -, -, rfl⟩ := h
  exact ⟨hcharter, rhash, hrhash, hhash⟩

/-- The instance that prose and deployment parameters determine. -/
def atlasContract (P : Prims) (prose : CStr) (p : AtlasDeploymentParams) (charter : CharterParams)
    (artifact : ScryptArtifact) : RicardianTea :=
  let params := atlasParams p charter (P.sha256 (contractBytes prose p.binding)).1
  ⟨artifact, params, ricardianTeaGenesisState params⟩

theorem buildAtlasInstance_eq_ok {p : AtlasDeploymentParams} {artifact : ScryptArtifact}
    {out : AtlasInstance} :
    buildAtlasInstance P prose p artifact = .ok out ↔
      ∃ charter, parseCharterParams prose = .ok charter ∧
        out = ⟨atlasContract P prose p charter artifact,
          hexEncode (P.sha256 (contractBytes prose p.binding)).1, p.binding, charter⟩ := by
  unfold buildAtlasInstance atlasContract
  simp only [computeRicardianHash_eq, bind_eq_ok, pure_eq_ok, mapError_eq_ok, Except.ok.injEq,
    exists_eq_left', hexDecode_hexEncode]
  constructor
  · rintro ⟨charter, hcharter, rfl⟩
    exact ⟨charter, hcharter, rfl⟩
  · rintro ⟨charter, hcharter, rfl⟩
    exact ⟨charter, hcharter, rfl⟩

theorem ricardianteaInstance_eq_ok {out : AtlasInstance} :
    ricardianteaInstance S E P prose = .ok out ↔
      ∃ p artifact charter, envAtlasParams S E = .ok p ∧
        E.loadArtifact (E.path "artifacts/ricardianTea.json") = .ok artifact ∧
        parseCharterParams prose = .ok charter ∧
        out = ⟨atlasContract P prose p charter artifact,
          hexEncode (P.sha256 (contractBytes prose p.binding)).1, p.binding, charter⟩ := by
  simp only [ricardianteaInstance, bind_eq_ok, buildAtlasInstance_eq_ok]
  constructor
  · rintro ⟨p, hp, artifact, hartifact, charter, hcharter, rfl⟩
    exact ⟨p, artifact, charter, hp, hartifact, hcharter, rfl⟩
  · rintro ⟨p, artifact, charter, hp, hartifact, hcharter, rfl⟩
    exact ⟨p, hp, artifact, hartifact, charter, hcharter, rfl⟩

/-- The policy of a rebuilt contract is the one the prose declares. -/
theorem rebuiltIdentity_policy {c : IdentityContract} (h : rebuiltIdentity P S E prose = .ok c) :
    parseCharterParams prose = .ok c.policy := by
  unfold rebuiltIdentity at h
  split_ifs at h
  · obtain ⟨inst, hinst, rfl⟩ := map_eq_ok.mp h
    exact (agentteaInstance_eq_ok hinst).1
  · obtain ⟨out, hout, rfl⟩ := map_eq_ok.mp h
    obtain ⟨p, artifact, charter, -, -, hcharter, rfl⟩ := ricardianteaInstance_eq_ok.mp hout
    exact hcharter

theorem expectedScriptHex_eq_ok {hex : CString} :
    expectedScriptHex P S E prose = .ok hex ↔
      ∃ c script, rebuiltIdentity P S E prose = .ok c ∧ c.genesisScript = .ok script ∧
        hex = hexEncode script := by
  unfold expectedScriptHex rebuiltIdentity
  split_ifs
  · simp only [buildAgentteaScript, bind_eq_ok, pure_eq_ok, map_eq_ok]
    constructor
    · rintro ⟨c, hc, script, hscript, rfl⟩
      exact ⟨_, script, ⟨c, hc, rfl⟩, hscript, rfl⟩
    · rintro ⟨_, script, ⟨c, hc, rfl⟩, hscript, rfl⟩
      exact ⟨c, hc, script, hscript, rfl⟩
  · simp only [buildRicardianteaScript, bind_eq_ok, pure_eq_ok, map_eq_ok]
    constructor
    · rintro ⟨out, hout, script, hscript, rfl⟩
      exact ⟨_, script, ⟨out, hout, rfl⟩, hscript, rfl⟩
    · rintro ⟨_, script, ⟨out, hout, rfl⟩, hscript, rfl⟩
      exact ⟨out, hout, script, hscript, rfl⟩

end Rebuild

section OnChain

variable {source : ChainSource} {txid : CString} {script : Bytes}

/-- The chain's answer for a transaction, as far as its first output. -/
def ShowsOutput0 (source : ChainSource) (txid : CString) (o : TxOut) : Prop :=
  ∃ raw tx, source.getRawTx txid = .ok (some raw) ∧ txDeserialize raw = .ok tx ∧
    tx.outputs[0]? = some o

theorem identityView_eq_ok {hex : CString} :
    source.identityView.getIdentityScriptHex txid 0 = .ok (some hex) ↔
      ∃ o, ShowsOutput0 source txid o ∧ hex = hexEncode o.script := by
  unfold ChainSource.identityView ShowsOutput0
  simp only
  rcases hraw : source.getRawTx txid with e | _ | raw
  · simp
  · simp
  rcases htx : txDeserialize raw with e | tx
  · simp [htx]
  rcases ho : tx.outputs[0]? with _ | o
  · simp [htx, ho]
  · simp [htx, ho, eq_comm]

theorem verifyIdentityScript_eq_none :
    verifyIdentityScriptOnChain source.identityView (some txid) 0 (some (hexEncode script)) = none ↔
      ∃ o, ShowsOutput0 source txid o ∧ o.script = script := by
  unfold verifyIdentityScriptOnChain
  simp only [asciiLower_hexEncode]
  rcases hview : source.identityView.getIdentityScriptHex txid 0 with e | _ | hex
  · simp only [reduceCtorEq, false_iff]
    rintro ⟨o, ho, rfl⟩
    simpa [hview] using identityView_eq_ok.mpr ⟨o, ho, rfl⟩
  · simp only [reduceCtorEq, false_iff]
    rintro ⟨o, ho, rfl⟩
    simpa [hview] using identityView_eq_ok.mpr ⟨o, ho, rfl⟩
  obtain ⟨o, ho, rfl⟩ := identityView_eq_ok.mp hview
  simp only [asciiLower_hexEncode]
  by_cases heq : hexEncode o.script = hexEncode script
  · rw [if_pos heq]
    exact iff_of_true rfl ⟨o, ho, hexEncode_inj heq⟩
  · rw [if_neg heq]
    simp only [reduceCtorEq, false_iff]
    rintro ⟨o', ho', rfl⟩
    have hother := identityView_eq_ok.mpr ⟨o', ho', rfl⟩
    rw [hview, Except.ok.injEq, Option.some.injEq] at hother
    exact heq hother

variable {P : Prims} {S : Secp256k1} {E : ScriptEnv} {woc : WocNetwork → Except Err ChainSource}
  {prose : CStr}

theorem onChainAccepted_iff (htxid : E.envSet "VERIFY_IDENTITY_TXID" = some txid) :
    onChainAccepted P S E woc prose = true ↔
      ∃ c source o, rebuiltIdentity P S E prose = .ok c ∧ woc (wocNetwork E) = .ok source ∧
        ShowsOutput0 source txid o ∧ c.genesisScript = .ok o.script := by
  unfold onChainAccepted
  rw [htxid]
  simp only
  rcases hexpected : expectedScriptHex P S E prose with e | expected
  · simp only [Bool.false_eq_true, false_iff]
    rintro ⟨c, source, o, hc, -, -, hscript⟩
    simpa [hexpected] using expectedScriptHex_eq_ok.mpr ⟨c, o.script, hc, hscript, rfl⟩
  obtain ⟨c, script, hc, hscript, rfl⟩ := expectedScriptHex_eq_ok.mp hexpected
  rcases hwoc : woc (wocNetwork E) with e | source
  · simp
  simp only [Option.isNone_iff_eq_none, verifyIdentityScript_eq_none]
  constructor
  · rintro ⟨o, ho, rfl⟩
    exact ⟨c, source, o, hc, rfl, ho, hscript⟩
  · rintro ⟨c', source', o, hc', hsource, ho, hscript'⟩
    obtain rfl : c = c' := Except.ok.inj (hc.symm.trans hc')
    obtain rfl : source = source' := Except.ok.inj hsource
    exact ⟨o, ho, Except.ok.inj (hscript'.symm.trans hscript)⟩

end OnChain

section Sidecar

variable {P : Prims} {S : Secp256k1} {E : ScriptEnv} {prose : CStr} {elder : CString}

/-- The sidecar is read as `sig`. -/
def ReadsSidecar (E : ScriptEnv) (sig : CharterSignature) : Prop :=
  E.pathExists (E.path sigRel) = true ∧
    ∃ text, E.readFileText sigRel = .ok text ∧ parseSigJson text = .ok sig

theorem issuerTrusted_iff {sig : CharterSignature} {pub : Block 33}
    (helder : E.envSet "ELDER_PUBKEY" = some elder) (hv : sig.Valid P S prose pub) :
    issuerTrusted S E sig = true ↔ pubkeyHexToCompressed S elder = .ok pub := by
  obtain ⟨issuer, hissuer, hpub⟩ := hv.issuer
  unfold issuerTrusted elderPub pubkeyHexToCompressed
  rw [helder, hissuer]
  simp only [Option.map_some, hpub]
  rcases ecdsaPubkeyFromHex S elder with e | pub'
  · simp
  · simp

theorem sidecarAccepted_of_exists (helder : E.envSet "ELDER_PUBKEY" = some elder)
    (hexists : E.pathExists (E.path sigRel) = true) :
    sidecarAccepted P S E prose = true ↔
      ∃ sig pub, ReadsSidecar E sig ∧ sig.Valid P S prose pub ∧
        pubkeyHexToCompressed S elder = .ok pub := by
  unfold sidecarAccepted ReadsSidecar
  simp only [hexists, if_true, true_and]
  rcases htext : E.readFileText sigRel with e | text
  · simp
  rcases hsig : parseSigJson text with e | sig
  · simp [hsig]
  simp only [hsig, Bool.and_eq_true, Option.isNone_iff_eq_none, verifyCharterSignature_eq_none]
  constructor
  · rintro ⟨⟨pub, hv⟩, htrusted⟩
    exact ⟨sig, pub, ⟨text, rfl, hsig⟩, hv, (issuerTrusted_iff helder hv).mp htrusted⟩
  · rintro ⟨sig', pub, ⟨text', htext', hsig'⟩, hv, hpub⟩
    obtain rfl : text = text' := Except.ok.inj htext'
    obtain rfl : sig = sig' := Except.ok.inj (hsig.symm.trans hsig')
    exact ⟨⟨pub, hv⟩, (issuerTrusted_iff helder hv).mpr hpub⟩

theorem sidecarAccepted_iff (helder : E.envSet "ELDER_PUBKEY" = some elder)
    (hallow : E.getenv "ALLOW_UNPINNED_ISSUER" = none) :
    sidecarAccepted P S E prose = true ↔
      ∃ sig pub, ReadsSidecar E sig ∧ sig.Valid P S prose pub ∧
        pubkeyHexToCompressed S elder = .ok pub := by
  by_cases hexists : E.pathExists (E.path sigRel) = true
  · exact sidecarAccepted_of_exists helder hexists
  · simp [sidecarAccepted, ReadsSidecar, hexists, elderPub, helder, allowUnpinned, hallow]

end Sidecar

section Coherence

variable (P : Prims) (S : Secp256k1) (E : ScriptEnv) (woc : WocNetwork → Except Err ChainSource)

/-- The prose, the sidecar, the key, the contract and the output that pass the checks of an audit
pinned to `elder` of the transaction `txid`. -/
structure Audited (elder txid : CString) (prose : CStr) (sig : CharterSignature) (pub : Block 33)
    (c : IdentityContract) (o : TxOut) : Prop where
  text : E.readFileText "legal/ricardian-prose.md" = .ok prose
  policy : parseCharterParams prose = .ok c.policy
  sidecar : ReadsSidecar E sig
  valid : sig.Valid P S prose pub
  pinned : pubkeyHexToCompressed S elder = .ok pub
  rebuilt : rebuiltIdentity P S E prose = .ok c
  onChain : ∃ source, woc (wocNetwork E) = .ok source ∧ ShowsOutput0 source txid o
  script : c.genesisScript = .ok o.script

variable {P S E woc} {elder txid : CString} {prose : CStr} {sig : CharterSignature} {pub : Block 33}
  {c : IdentityContract} {o : TxOut}

/-- What passes the checks is accepted. -/
theorem Audited.run_eq_zero (helder : E.envSet "ELDER_PUBKEY" = some elder)
    (htxid : E.envSet "VERIFY_IDENTITY_TXID" = some txid)
    (h : Audited P S E woc elder txid prose sig pub c o) :
    verifyRicardianRun P S E woc = .ok 0 := by
  obtain ⟨source, hsource, ho⟩ := h.onChain
  have hsidecar : sidecarAccepted P S E prose = true :=
    (sidecarAccepted_of_exists helder h.sidecar.1).mpr ⟨sig, pub, h.sidecar, h.valid, h.pinned⟩
  have hchain : onChainAccepted P S E woc prose = true :=
    (onChainAccepted_iff htxid).mpr ⟨c, source, o, h.rebuilt, hsource, ho, h.script⟩
  unfold verifyRicardianRun
  simp [h.text, h.policy, hsidecar, hchain]

theorem verifyRicardianRun_eq_zero (helder : E.envSet "ELDER_PUBKEY" = some elder)
    (htxid : E.envSet "VERIFY_IDENTITY_TXID" = some txid)
    (hallow : E.getenv "ALLOW_UNPINNED_ISSUER" = none) :
    verifyRicardianRun P S E woc = .ok 0 ↔
      ∃ prose sig pub c o, Audited P S E woc elder txid prose sig pub c o := by
  constructor
  · intro hrun
    unfold verifyRicardianRun at hrun
    rcases hprose : E.readFileText "legal/ricardian-prose.md" with e | prose
    · simp [hprose] at hrun
    rcases hparams : parseCharterParams prose with e | charter
    · simp [hprose, hparams] at hrun
    simp only [hprose, hparams] at hrun
    rw [ite_eq_iff] at hrun
    simp only [Bool.and_eq_true, sidecarAccepted_iff helder hallow, onChainAccepted_iff htxid,
      Except.ok.injEq, one_ne_zero, and_true, and_false, or_false] at hrun
    obtain ⟨⟨sig, pub, hsidecar, hv, hpub⟩, c, source, o, hc, hsource, ho, hscript⟩ := hrun
    exact ⟨prose, sig, pub, c, o, hprose, rebuiltIdentity_policy hc, hsidecar, hv, hpub, hc,
      ⟨source, hsource, ho⟩, hscript⟩
  · rintro ⟨prose, sig, pub, c, o, h⟩
    exact h.run_eq_zero helder htxid

/-- Prose and sidecar are what the files hold. -/
theorem Audited.reads_unique {prose' : CStr} {sig' : CharterSignature} {pub' : Block 33}
    {c' : IdentityContract} {o' : TxOut} (h : Audited P S E woc elder txid prose sig pub c o)
    (h' : Audited P S E woc elder txid prose' sig' pub' c' o') : prose = prose' ∧ sig = sig' := by
  obtain ⟨-, text, htext, hsig⟩ := h.sidecar
  obtain ⟨-, text', htext', hsig'⟩ := h'.sidecar
  obtain rfl : text = text' := Except.ok.inj (htext.symm.trans htext')
  exact ⟨Except.ok.inj (h.text.symm.trans h'.text), Except.ok.inj (hsig.symm.trans hsig')⟩

theorem hexToLower_asciiLower (s : CString) : hexToLower (asciiLower s) = asciiLower s := by
  have key : ∀ c : UInt8, (if 65 ≤ (if 65 ≤ c ∧ c ≤ 90 then c - 65 + 97 else c)
          ∧ (if 65 ≤ c ∧ c ≤ 90 then c - 65 + 97 else c) ≤ 70
        then (if 65 ≤ c ∧ c ≤ 90 then c - 65 + 97 else c) - 65 + 97
        else if 65 ≤ c ∧ c ≤ 90 then c - 65 + 97 else c)
      = if 65 ≤ c ∧ c ≤ 90 then c - 65 + 97 else c := by
    apply Lib.forall_byte
    decide +kernel
  unfold hexToLower asciiLower
  rw [List.map_map]
  exact List.map_congr_left fun c _ => key c

theorem hexDecodeLower_eq_iff {hex : CString} {bs bs' : Bytes} (h : hexDecodeLower hex = .ok bs) :
    bs = bs' ↔ asciiLower hex = hexEncode bs' := by
  have hencode : hexEncode bs = asciiLower hex := by
    rw [hexEncode_of_hexDecode h, hexToLower_asciiLower]
  rw [← hencode]
  exact ⟨congrArg hexEncode, hexEncode_inj⟩

variable (P S E) in
/-- The environment names the ricardian hash that was signed: `RICARDIAN_HASH` is the sidecar's up
to letter case, or the binding variables give the prose the hash that the sidecar's binding gives
it. -/
def CommitsSigned (prose : CStr) (sig : CharterSignature) : Prop :=
  if identityKind E = ascii "agenttea" then
    (E.envSet "RICARDIAN_HASH").map asciiLower
      = sig.ricardianHash.map fun rhash => asciiLower rhash.val
  else
    ∃ p, envAtlasParams S E = .ok p ∧
      computeRicardianHash P prose p.binding = computeRicardianHash P prose sig.binding

theorem Audited.ricardianHash_eq_iff (h : Audited P S E woc elder txid prose sig pub c o) :
    c.ricardianHash = (P.sha256 (contractBytes prose sig.binding)).1 ↔
      CommitsSigned P S E prose sig := by
  have hrebuilt := h.rebuilt
  unfold rebuiltIdentity at hrebuilt
  unfold CommitsSigned
  split_ifs at hrebuilt ⊢ with hkind
  · obtain ⟨inst, hinst, rfl⟩ := map_eq_ok.mp hrebuilt
    obtain ⟨-, rhash, hrhash, hdecode⟩ := agentteaInstance_eq_ok hinst
    obtain ⟨signed, hsigned, hlower⟩ := h.valid.hash
    rw [hrhash, hsigned, Option.map_some, Option.map_some, Option.some.injEq, hlower]
    exact hexDecodeLower_eq_iff hdecode
  · obtain ⟨out, hout, rfl⟩ := map_eq_ok.mp hrebuilt
    obtain ⟨p, artifact, charter, hp, -, -, rfl⟩ := ricardianteaInstance_eq_ok.mp hout
    simp only [hp, computeRicardianHash_eq, Except.ok.injEq, exists_eq_left']
    exact ⟨fun heq => congrArg hexEncode heq, hexEncode_inj⟩

variable (P S E woc elder txid) in
/-- Exit code 0 says that the sidecar is the Elder's signature over the prose, that output 0 of the
transaction is a genesis script with the policy of the prose, and that its ricardian hash is the one
that was signed. -/
def AuditCoherent : Prop :=
  verifyRicardianRun P S E woc = .ok 0 → ∃ prose sig pub c o,
    Audited P S E woc elder txid prose sig pub c o ∧
      c.ricardianHash = (P.sha256 (contractBytes prose sig.binding)).1

theorem auditCoherent_iff (helder : E.envSet "ELDER_PUBKEY" = some elder)
    (htxid : E.envSet "VERIFY_IDENTITY_TXID" = some txid)
    (hallow : E.getenv "ALLOW_UNPINNED_ISSUER" = none) :
    AuditCoherent P S E woc elder txid ↔
      ∀ prose sig pub c o, Audited P S E woc elder txid prose sig pub c o →
        CommitsSigned P S E prose sig := by
  unfold AuditCoherent
  rw [verifyRicardianRun_eq_zero helder htxid hallow]
  constructor
  · intro h prose sig pub c o haudited
    obtain ⟨prose', sig', pub', c', o', haudited', hhash⟩ := h ⟨prose, sig, pub, c, o, haudited⟩
    obtain ⟨rfl, rfl⟩ := haudited.reads_unique haudited'
    exact haudited'.ricardianHash_eq_iff.mp hhash
  · rintro h ⟨prose, sig, pub, c, o, haudited⟩
    exact ⟨prose, sig, pub, c, o, haudited,
      haudited.ricardianHash_eq_iff.mpr (h prose sig pub c o haudited)⟩

end Coherence

section Example

/-- The binding of the charter's example with one confirmation instead of six. -/
def exampleEnvBinding : DeploymentBinding :=
  { exampleBinding with minSlashConfirmations := cStr (ascii "1") }

def exampleEnvDigest : Block 32 :=
  ⟨[0x0d, 0x4f, 0x16, 0x06, 0xa2, 0x85, 0xd3, 0x24, 0x62, 0xc2, 0xa1, 0xeb, 0x31, 0x60, 0x00,
     0xc6, 0x8c, 0x28, 0x57, 0xc1, 0xc1, 0x16, 0x47, 0x28, 0x0c, 0x76, 0x14, 0xa5, 0x0e, 0xec,
     0xce, 0x63], rfl⟩

/-- The sidecar of the charter's example. -/
def exampleSidecar : Bytes :=
  ascii "\x7b\"algo\":\"ECDSA-SHA256\",\"issuerPubKey\":\"" ++ hexEncode exampleIssuerPubkey.1
    ++ ascii "\",\"signature\":\"" ++ hexEncode exampleDer
    ++ ascii "\",\"ricardianHash\":\"" ++ hexEncode exampleDigest.1
    ++ ascii "\",\"binding\":" ++ bindingJson exampleBinding ++ ascii "\x7d\n"

def exampleArtifact : ScryptArtifact where
  hexTemplate := ascii "<owner><ricardianHash>"
  ctorParams := ["owner", "agent", "ricardianHash", "perTxLimit", "dailyLimit", "windowDuration",
    "graduationThreshold", "validatorThreshold", "designatedValidatorPubKey",
    "validatorRabinPubKey", "maxSlashingTarget", "minSlashConfirmations",
    "initialSlashCheckpointHash"].map fun name => ⟨ascii name, .bytes⟩
  structs := []
  stateProps := []

def exampleVars : List (String × CString) :=
  [("ELDER_PUBKEY", hexEncode exampleIssuerPubkey.1),
    ("VERIFY_IDENTITY_TXID", List.replicate 64 49),
    ("AGENT_PUBKEY", hexEncode exampleAgentPubkey.1),
    ("DESIGNATED_VALIDATOR_RABIN_PUBKEY", ascii "21"), ("VALIDATOR_RABIN_PUBKEY", ascii "77"),
    ("MAX_SLASHING_TARGET", ascii "9"), ("MIN_SLASH_CONFIRMATIONS", ascii "1"),
    ("INITIAL_SLASH_CHECKPOINT_HASH", List.replicate 64 48)]

def exampleAuditEnv : ScriptEnv where
  argv1 := none
  getenv name := exampleVars.lookup name
  pathExists _ := true
  readFile path := .ok (if path = ascii "./legal/ricardian-prose.sig" then exampleSidecar
    else exampleProse.val)
  loadArtifact _ := .ok exampleArtifact

/-- Output 0 of an identity that commits to the contract under the binding of the environment. -/
def exampleScript : Bytes := 33 :: exampleIssuerPubkey.1 ++ 32 :: exampleEnvDigest.1

def exampleIdentityTx : Tx :=
  ⟨1, [⟨List.replicate 64 50, 0, [], 0xffffffff⟩], [⟨1, exampleScript⟩], 0⟩

def exampleAuditSource : ChainSource where
  getRawTx _ := (txSerialize exampleIdentityTx).map fun raw => some (hexEncode raw)
  getTime _ := .error .enet
  getSpendingTxid _ _ := .error .enet

theorem sha256_exampleEnvContract :
    codePrims.sha256 (contractBytes exampleProse exampleEnvBinding) = exampleEnvDigest := by
  decide +kernel

def exampleSig : CharterSignature where
  algo := cStr charterAlgo
  issuerPubkey := cStr (ecdsaPubkeyToHex exampleIssuerPubkey)
  signature := cStr (hexEncode exampleDer)
  ricardianHash := cStr (hexEncode exampleDigest.1)
  binding := exampleBinding

def exampleAtlasParams : AtlasDeploymentParams :=
  ⟨exampleIssuerPubkey.1, exampleAgentPubkey.1, 21, 77, 9, 1, List.replicate 32 0⟩

/-- The contract the audit rebuilds. -/
def exampleContract : RicardianTea :=
  let params := atlasParams exampleAtlasParams ⟨5, 9, 60, 3, 4⟩ exampleEnvDigest.1
  ⟨exampleArtifact, params, ricardianTeaGenesisState params⟩

/-- What the audit reads from its variables. -/
theorem exampleAuditEnv_reads :
    exampleAuditEnv.envSet "ELDER_PUBKEY" = some (hexEncode exampleIssuerPubkey.1) ∧
      exampleAuditEnv.envSet "VERIFY_IDENTITY_TXID" = some (List.replicate 64 49) ∧
      identityKind exampleAuditEnv ≠ ascii "agenttea" ∧
      envAtlasParams exampleSecp exampleAuditEnv = .ok exampleAtlasParams ∧
      exampleAtlasParams.binding = exampleEnvBinding := by
  decide +kernel

example : exampleEnvBinding ≠ exampleBinding := by decide +kernel

theorem atlasContract_example :
    atlasContract codePrims exampleProse exampleAtlasParams ⟨5, 9, 60, 3, 4⟩ exampleArtifact
      = exampleContract := by
  unfold atlasContract
  rw [exampleAuditEnv_reads.2.2.2.2, sha256_exampleEnvContract]
  rfl

theorem exampleSig_valid :
    exampleSig.Valid codePrims exampleSecp exampleProse exampleIssuerPubkey where
  hash := by
    refine ⟨cStr (hexEncode exampleDigest.1), rfl, ?_⟩
    rw [cStr_hexEncode, asciiLower_hexEncode]
    exact congrArg (fun d : Block 32 => hexEncode d.1) sha256_exampleContract.symm
  issuer := by
    refine ⟨cStr (ecdsaPubkeyToHex exampleIssuerPubkey), rfl, ?_⟩
    have hval : (cStr (ecdsaPubkeyToHex exampleIssuerPubkey)).val
        = ecdsaPubkeyToHex exampleIssuerPubkey := cStr_hexEncode _
    rw [hval, exampleIssuerPubkey_fromHex]
  signature := by
    refine ⟨cStr (hexEncode exampleDer), exampleDer, rfl, ?_, ?_⟩
    · rw [cStr_hexEncode, hexDecode_hexEncode]
    · exact ecdsaVerify_example.mpr sha256_exampleContract

/-- A checkout in the working directory that holds the example's prose and a sidecar. -/
theorem readFileText_checkout {E : ScriptEnv} {sidecar : Bytes} (hroot : E.root = ascii ".")
    (hread : ∀ path,
      E.readFile path = .ok (if path = ascii "./legal/ricardian-prose.sig" then sidecar
      else exampleProse.val)) :
    E.readFileText "legal/ricardian-prose.md" = .ok exampleProse ∧
      E.readFileText sigRel = .ok (cStr sidecar) := by
  have hpaths : ascii "." ≠ [] ∧ ascii "." ++ ascii "/" ++ ascii "legal/ricardian-prose.md"
        ≠ ascii "./legal/ricardian-prose.sig" ∧
      ascii "." ++ ascii "/" ++ ascii sigRel = ascii "./legal/ricardian-prose.sig" := by
    simp [ascii, sigRel]
  obtain ⟨hne, hprose, hsidecar⟩ := hpaths
  unfold ScriptEnv.readFileText ScriptEnv.path
  rw [hroot, if_neg hne, if_neg hne, hread, hread, if_neg hprose, if_pos hsidecar]
  exact ⟨congrArg Except.ok (cStr_val exampleProse), rfl⟩

theorem exampleAuditEnv_files :
    exampleAuditEnv.readFileText "legal/ricardian-prose.md" = .ok exampleProse ∧
      exampleAuditEnv.readFileText sigRel = .ok (cStr exampleSidecar) :=
  readFileText_checkout rfl fun _ => rfl

theorem exampleProse_charter : parseCharterParams exampleProse = .ok ⟨5, 9, 60, 3, 4⟩ := by
  decide +kernel

theorem exampleRebuilt :
    rebuiltIdentity codePrims exampleSecp exampleAuditEnv exampleProse
      = .ok (.ricardianTea exampleContract) := by
  obtain ⟨-, -, hkind, hparams, -⟩ := exampleAuditEnv_reads
  unfold rebuiltIdentity
  rw [if_neg hkind, ricardianteaInstance_eq_ok.mpr ⟨exampleAtlasParams, exampleArtifact, _, hparams,
    rfl, exampleProse_charter, rfl⟩, atlasContract_example]
  rfl

theorem exampleAudited : ∃ o, Audited codePrims exampleSecp exampleAuditEnv
    (fun _ => .ok exampleAuditSource) (hexEncode exampleIssuerPubkey.1) (List.replicate 64 49)
    exampleProse exampleSig exampleIssuerPubkey (.ricardianTea exampleContract) o := by
  have hsidecar : parseSigJson (cStr exampleSidecar) = .ok exampleSig := by decide +kernel
  have hview : exampleAuditSource.identityView.getIdentityScriptHex (List.replicate 64 49) 0
      = .ok (some (hexEncode exampleScript)) := by decide +kernel
  have hscript : (IdentityContract.ricardianTea exampleContract).genesisScript
    = .ok exampleScript := by
    decide +kernel
  obtain ⟨o, ho, heq⟩ := identityView_eq_ok.mp hview
  rw [hexEncode_inj heq] at hscript
  exact ⟨o, exampleAuditEnv_files.1, exampleProse_charter,
    ⟨rfl, _, exampleAuditEnv_files.2, hsidecar⟩,
    exampleSig_valid, exampleIssuerPubkey_fromHex, exampleRebuilt, ⟨_, rfl, ho⟩, hscript⟩

/-- The sidecar was signed over six confirmations, and the identity commits to one: the audit exits
with 0 all the same. -/
theorem auditIncoherent : ¬AuditCoherent codePrims exampleSecp exampleAuditEnv
    (fun _ => .ok exampleAuditSource) (hexEncode exampleIssuerPubkey.1) (List.replicate 64 49) := by
  intro h
  obtain ⟨o, haudit⟩ := exampleAudited
  have hrun := (verifyRicardianRun_eq_zero exampleAuditEnv_reads.1 exampleAuditEnv_reads.2.1
    rfl).mpr ⟨_, _, _, _, _, haudit⟩
  obtain ⟨prose, sig, pub, c, o', haudit', hhash⟩ := h hrun
  obtain ⟨rfl, rfl⟩ := haudit.reads_unique haudit'
  obtain rfl : IdentityContract.ricardianTea exampleContract = c :=
    Except.ok.inj (haudit.rebuilt.symm.trans haudit'.rebuilt)
  have hdigest : exampleEnvDigest.1 = exampleDigest.1 := by
    rw [← sha256_exampleContract]
    exact hhash
  exact absurd hdigest (by decide)

theorem auditCoherent_iff_example :
    AuditCoherent codePrims exampleSecp exampleAuditEnv (fun _ => .ok exampleAuditSource)
        (hexEncode exampleIssuerPubkey.1) (List.replicate 64 49) ↔
      ∀ prose sig pub c o, Audited codePrims exampleSecp exampleAuditEnv
          (fun _ => .ok exampleAuditSource) (hexEncode exampleIssuerPubkey.1) (List.replicate 64 49)
          prose sig pub c o →
        CommitsSigned codePrims exampleSecp exampleAuditEnv prose sig :=
  auditCoherent_iff exampleAuditEnv_reads.1 exampleAuditEnv_reads.2.1 rfl

end Example

end BonsaiChain
