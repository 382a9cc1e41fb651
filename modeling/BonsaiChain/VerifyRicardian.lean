import BonsaiChain.AgentTea
import BonsaiChain.AtlasIdentity
import BonsaiChain.ScriptSupport

/-!
# The charter audit

`scripts/verify_ricardian_lib.c`: the policy block is parsed, the sidecar is verified and its issuer
pinned to the Elder, and output 0 of the identity transaction is compared with the locking script
that the prose and the environment give. What is printed is left out.
-/

namespace BonsaiChain

open CJson

section Sidecar

/-- `dup_json_str`. -/
def dupJsonStr (obj : Json) (key : String) : Option CStr :=
  (getObjectItem (ascii key) obj).bind stringValue

/-- The fields of the sidecar, absent where the text has no such string. -/
def sigFields (root : Json) : CharterSignature where
  algo := dupJsonStr root "algo"
  issuerPubkey := dupJsonStr root "issuerPubKey"
  signature := dupJsonStr root "signature"
  ricardianHash := dupJsonStr root "ricardianHash"
  binding :=
    match getObjectItem (ascii "binding") root with
    | some (.object members) =>
      { agentPubkey := dupJsonStr (.object members) "agentPubKey"
        designatedValidatorPubkey := dupJsonStr (.object members) "designatedValidatorPubKey"
        validatorRabinPubkey := dupJsonStr (.object members) "validatorRabinPubKey"
        maxSlashingTarget := dupJsonStr (.object members) "maxSlashingTarget"
        minSlashConfirmations := dupJsonStr (.object members) "minSlashConfirmations"
        initialSlashCheckpointHash := dupJsonStr (.object members) "initialSlashCheckpointHash" }
    | _ => ⟨none, none, none, none, none, none⟩

def DeploymentBinding.complete (b : DeploymentBinding) : Bool :=
  b.agentPubkey.isSome && b.designatedValidatorPubkey.isSome && b.validatorRabinPubkey.isSome &&
    b.maxSlashingTarget.isSome && b.minSlashConfirmations.isSome &&
    b.initialSlashCheckpointHash.isSome

def CharterSignature.complete (sig : CharterSignature) : Bool :=
  sig.algo.isSome && sig.issuerPubkey.isSome && sig.signature.isSome && sig.ricardianHash.isSome &&
    sig.binding.complete

def parseSigJson (text : CStr) : Except Err CharterSignature :=
  match parse text.val with
  | none => .error .eparse
  | some root => if (sigFields root).complete then .ok (sigFields root) else .error .eparse

end Sidecar

section Rebuild

variable (S : Secp256k1) (E : ScriptEnv)

/-- The result, or `BNS_EINVAL`. -/
def orInval {α : Type} : Except Err α → Except Err α
  | .error _ => .error .einval
  | .ok a => .ok a

/-- `str_tolower` before `hex_decode`. -/
def hexDecodeLower (hex : CString) : Except Err Bytes := hexDecode (asciiLower hex)

def isBlank (c : UInt8) : Bool := c == 32 || c == 9

/-- The entries of `RECOVERY_RABIN_PUBKEYS` that `strtok_r` finds, without their blanks. -/
def recoveryTokens (rrk : CString) : List CString :=
  ((rrk.splitOn 44).filter (· ≠ [])).map fun tok => (tok.dropWhile isBlank).rdropWhile isBlank

def parseRecoveryKeys (rrk : CString) : Except Err (Vector ℤ 3) :=
  match recoveryTokens rrk with
  | [a, b, c] => do
    let ka ← orInval (bnParseDec a)
    let kb ← orInval (bnParseDec b)
    let kc ← orInval (bnParseDec c)
    return Vector.ofFn fun i => [ka, kb, kc].getD i 0
  | _ => .error .einval

/-- The instance behind `build_agenttea_script`. -/
def agentteaInstance (prose : CStr) : Except Err AgentTea := do
  let elder ← E.envRequire "ELDER_PUBKEY"
  let agent ← E.envRequire "AGENT_PUBKEY"
  let rhash ← E.envRequire "RICARDIAN_HASH"
  let dvr ← E.envRequire "DESIGNATED_VALIDATOR_RABIN_PUBKEY"
  let vrp ← E.envRequire "VALIDATOR_RABIN_PUBKEY"
  let rrk ← E.envRequire "RECOVERY_RABIN_PUBKEYS"
  let rthr ← E.envRequire "RECOVERY_THRESHOLD"
  let charter ← (parseCharterParams prose).mapError (·.1)
  let recoveryKeys ← parseRecoveryKeys rrk
  let artifact ← E.loadArtifact (E.path "artifacts/src/contracts-next/agentTea.json")
  let owner ← orInval (pubkeyHexToCompressed S elder)
  let agent ← orInval (pubkeyHexToCompressed S agent)
  let ricardianHash ← orInval (hexDecodeLower rhash)
  let designated ← orInval (bnParseDec dvr)
  let validator ← orInval (bnParseDec vrp)
  let threshold ← orInval (bnParseDec rthr)
  return { artifact := artifact
           params :=
            { owner := owner.1
              agent := agent.1
              ricardianHash := ricardianHash
              perTxLimit := charter.perTxLimit
              dailyLimit := charter.dailyLimit
              windowDuration := charter.windowDuration
              graduationThreshold := charter.graduationThreshold
              validatorThreshold := charter.validatorThreshold
              designatedValidatorPubkey := designated
              validatorRabinPubkey := validator
              recoveryKeys := recoveryKeys
              recoveryThreshold := threshold }
           state := agentTeaGenesisState }

def buildAgentteaScript (prose : CStr) : Except Err CString := do
  let inst ← agentteaInstance S E prose
  let script ← agentTeaLockingScript inst true
  return hexEncode script

/-- The deployment parameters that `build_ricardiantea_script` reads. -/
def envAtlasParams : Except Err AtlasDeploymentParams := do
  let elder ← E.envRequire "ELDER_PUBKEY"
  let agent ← E.envRequire "AGENT_PUBKEY"
  let dvr ← E.envRequire "DESIGNATED_VALIDATOR_RABIN_PUBKEY"
  let vrp ← E.envRequire "VALIDATOR_RABIN_PUBKEY"
  let mst ← E.envRequire "MAX_SLASHING_TARGET"
  let msc ← E.envRequire "MIN_SLASH_CONFIRMATIONS"
  let isch ← E.envRequire "INITIAL_SLASH_CHECKPOINT_HASH"
  let elderPubkey ← orInval (pubkeyHexToCompressed S elder)
  let agentPubkey ← orInval (pubkeyHexToCompressed S agent)
  let designated ← orInval (bnParseDec dvr)
  let validator ← orInval (bnParseDec vrp)
  let target ← orInval (bnParseDec mst)
  let confirmations ← orInval (bnParseDec msc)
  let checkpoint ← orInval (hexDecodeLower isch)
  return ⟨elderPubkey.1, agentPubkey.1, designated, validator, target, confirmations, checkpoint⟩

/-- The instance behind `build_ricardiantea_script`. -/
def ricardianteaInstance (P : Prims) (prose : CStr) : Except Err AtlasInstance := do
  let p ← envAtlasParams S E
  let artifact ← E.loadArtifact (E.path "artifacts/ricardianTea.json")
  buildAtlasInstance P prose p artifact

def buildRicardianteaScript (P : Prims) (prose : CStr) : Except Err CString := do
  let out ← ricardianteaInstance S E P prose
  let script ← ricardianTeaLockingScript out.inst true
  return hexEncode script

end Rebuild

section Run

variable (P : Prims) (S : Secp256k1) (E : ScriptEnv)

def elderPub : Option CString := E.envSet "ELDER_PUBKEY"

def allowUnpinned : Bool := (E.getenv "ALLOW_UNPINNED_ISSUER").isSome

/-- The issuer's key is the Elder's, or no Elder is set and an unpinned issuer is allowed. -/
def issuerTrusted (sig : CharterSignature) : Bool :=
  match elderPub E with
  | none => allowUnpinned E
  | some elder =>
    match pubkeyHexToCompressed S elder, sig.issuerPubkey.map fun hex =>
      pubkeyHexToCompressed S hex.val with
    | .ok elder, some (.ok issuer) => elder = issuer
    | _, _ => false

def sigRel : String := "legal/ricardian-prose.sig"

/-- The checks on the sidecar. Without one, only an unpinned audit goes on. -/
def sidecarAccepted (prose : CStr) : Bool :=
  if E.pathExists (E.path sigRel) then
    match E.readFileText sigRel with
    | .error _ => false
    | .ok text =>
      match parseSigJson text with
      | .error _ => false
      | .ok sig => (verifyCharterSignature P S prose sig).isNone && issuerTrusted S E sig
  else (elderPub E).isNone || allowUnpinned E

/-- `IDENTITY_KIND` as its buffer of 32 bytes holds it, in lower case. -/
def identityKind : CString :=
  asciiLower ((E.envOr "IDENTITY_KIND" (ascii "ricardiantea")).take 31)

def expectedScriptHex (prose : CStr) : Except Err CString :=
  if identityKind E = ascii "agenttea" then buildAgentteaScript S E prose
  else buildRicardianteaScript S E P prose

inductive WocNetwork where
  | main | test
  deriving DecidableEq, Repr

def wocNetwork : WocNetwork :=
  if E.envOr "WOC_NETWORK" (ascii "main") = ascii "test" then .test else .main

/-- The comparison with the chain, where a transaction is named. Opening the source may fail. -/
def onChainAccepted (woc : WocNetwork → Except Err ChainSource) (prose : CStr) : Bool :=
  match E.envSet "VERIFY_IDENTITY_TXID" with
  | none => true
  | some txid =>
    match expectedScriptHex P S E prose with
    | .error _ => false
    | .ok expected =>
      match woc (wocNetwork E) with
      | .error _ => false
      | .ok source =>
        (verifyIdentityScriptOnChain source.identityView (some txid) 0 (some expected)).isNone

/-- `verify_ricardian_run`: the exit code. An error is that of reading the prose; the exit code is
then 1. -/
def verifyRicardianRun (woc : WocNetwork → Except Err ChainSource) : Except Err ℕ :=
  match E.readFileText "legal/ricardian-prose.md" with
  | .error e => .error e
  | .ok prose =>
    match parseCharterParams prose with
    | .error _ => .ok 1
    | .ok _ =>
      if sidecarAccepted P S E prose && onChainAccepted P S E woc prose then .ok 0 else .ok 1

end Run

end BonsaiChain
