import BonsaiChain.AtlasIdentity
import BonsaiChain.CJsonPretty
import BonsaiChain.ChainBroadcast
import BonsaiChain.ContractSign
import BonsaiChain.ScriptSupport

/-!
# The deployment of an identity

`scripts/deploy_lib.c`: the Elder signs the charter, the sidecar is written and verified, and, once
confirmed, a transaction with the genesis script as output 0 is funded, signed and broadcast. What
is printed is left out.
-/

namespace BonsaiChain

open CJson Lib

namespace Deploy

section Parameters

variable (P : Prims) (S : Secp256k1) (E : ScriptEnv)

/-- The path of the Elder's key file. -/
def elderFile : CString :=
  E.envOr "ELDER_KEY_FILE"
    (E.envOr "KEY_FILE" ((E.bonsaiHome ++ ascii "/chain/test_bsv.json").take 1023))

/-- The Elder's key, from the environment or from a key file. -/
def elderKey : Except Err EcdsaKey :=
  match E.envSet "PRIVATE_KEY" with
  | some priv => do
    let w ← wifDecode P priv
    if w.net ≠ .mainnet then throw .einval
    ecdsaKeyFromBytes S w.secret
  | none => do
    let kf ← E.keyFileLoad (elderFile E)
    keyFileVerify P S kf .mainnet
    let (key, _) ← ecdsaKeyFromWif P S kf.wif.val
    return key

def parsePubkeyEnv (name : String) : Except Err (Block 33) := do
  let val ← E.envRequire name
  pubkeyHexToCompressed S val

def parseBigintEnv (name : String) : Except Err ℤ := do
  let val ← E.envRequire name
  bnParseDec val

def parseHashEnv (name : String) : Except Err Bytes := do
  let val ← E.envRequire name
  if isHexLen val 32 then hexDecode (hexToLower val) else throw .einval

/-- The Elder's key and public key, and the deployment parameters. -/
def deployParams : Except Err (EcdsaKey × Block 33 × AtlasDeploymentParams) := do
  let elder ← elderKey P S E
  let elderPk ← elder.pubkey
  let maxSlashing ← parseBigintEnv E "MAX_SLASHING_TARGET"
  let minConfirm ← parseBigintEnv E "MIN_SLASH_CONFIRMATIONS"
  if maxSlashing ≤ 0 then throw .einval
  if minConfirm < 1 ∨ minConfirm > 6 then throw .einval
  let agentPk ← parsePubkeyEnv S E "AGENT_PUBKEY"
  let desigValidator ← parseBigintEnv E "DESIGNATED_VALIDATOR_RABIN_PUBKEY"
  let validatorRabin ← parseBigintEnv E "VALIDATOR_RABIN_PUBKEY"
  let initCkpt ← parseHashEnv E "INITIAL_SLASH_CHECKPOINT_HASH"
  return (elder, elderPk, ⟨elderPk.1, agentPk.1, desigValidator, validatorRabin, maxSlashing,
    minConfirm, initCkpt⟩)

end Parameters

section Sidecar

/-- `cJSON_AddStringToObject`. -/
def stringItem : Option CStr → Except Err Json
  | none => .error .enomem
  | some s => .ok (.string s)

def sigJsonBinding (b : DeploymentBinding) : Except Err Json := do
  let agent ← stringItem b.agentPubkey
  let designated ← stringItem b.designatedValidatorPubkey
  let validator ← stringItem b.validatorRabinPubkey
  let target ← stringItem b.maxSlashingTarget
  let confirmations ← stringItem b.minSlashConfirmations
  let checkpoint ← stringItem b.initialSlashCheckpointHash
  return .object [(cStr (ascii "agentPubKey"), agent),
    (cStr (ascii "designatedValidatorPubKey"), designated),
    (cStr (ascii "validatorRabinPubKey"), validator),
    (cStr (ascii "maxSlashingTarget"), target),
    (cStr (ascii "minSlashConfirmations"), confirmations),
    (cStr (ascii "initialSlashCheckpointHash"), checkpoint)]

def buildSigJson (csig : CharterSignature) : Except Err CStr := do
  let algo ← stringItem csig.algo
  let issuer ← stringItem csig.issuerPubkey
  let signature ← stringItem csig.signature
  let rhash ← stringItem csig.ricardianHash
  let bind ← sigJsonBinding csig.binding
  jsonPrintPretty2Nl (.object [(cStr (ascii "algo"), algo), (cStr (ascii "issuerPubKey"), issuer),
    (cStr (ascii "signature"), signature), (cStr (ascii "ricardianHash"), rhash),
    (cStr (ascii "binding"), bind)])

/-- What the run has made before it writes the sidecar. -/
structure PreparedCharter where
  elder : EcdsaKey
  elderPk : Block 33
  prose : CStr
  inst : AtlasInstance
  csig : CharterSignature
  sigText : CStr

def prepareCharter (P : Prims) (S : Secp256k1) (E : ScriptEnv) : Except Err PreparedCharter := do
  let (elder, elderPk, p) ← deployParams P S E
  let prose ← E.readFileText "legal/ricardian-prose.md"
  let artifact ← E.loadArtifact (E.path "artifacts/ricardianTea.json")
  let inst ← buildAtlasInstance P prose p artifact
  let csig ← signCharter P prose inst.binding elder
  let sigText ← buildSigJson csig
  return ⟨elder, elderPk, prose, inst, csig, sigText⟩

/-- The sidecar is verified before the genesis script is made. -/
def identityScript (P : Prims) (S : Secp256k1) (c : PreparedCharter) : Except Err Bytes :=
  if (verifyCharterSignature P S c.prose c.csig).isSome then .error .eintegrity
  else ricardianTeaLockingScript c.inst.inst true

end Sidecar

section Live

variable (P : Prims) (E : ScriptEnv)

/-- `strtoll` in base 10. -/
def strtoll (text : CString) : Int64 :=
  let (negative, s) := readSign (text.dropWhile isJsWs)
  let n : ℤ := digitsValue (s.takeWhile isDigitByte)
  Int64.ofInt (max Int64.minValue.toInt (min Int64.maxValue.toInt (if negative then -n else n)))

/-- `throttled_provider_fee_per_kb`: an override is answered without asking the service. -/
def throttledProviderFeePerKb (woc : WocClient) : Except Err Int64 :=
  match E.envSet "FEE_PER_KB" with
  | some fee => .ok (strtoll fee)
  | none => woc.feePerKb

/-- The answer where it is positive, or 50 satoshis. -/
def deployFeePerKb (woc : WocClient) : Int64 :=
  match throttledProviderFeePerKb E woc with
  | .ok q => if 0 < q then q else 50
  | .error _ => 50

/-- An empty address is too short here. -/
def addressToHash160 (addr : CString) (net : BsvNetwork) : Except Err (Block 20) :=
  if addr = [] then .error .eparse else addrToH160 P net addr

def changeH160 (elderH160 : Block 20) : Except Err (Block 20) :=
  match E.envSet "CHANGE_ADDRESS" with
  | some addr => addressToHash160 P addr .mainnet
  | none => .ok elderH160

def identitySats : UInt64 := 1

def feeDustFloor : ℤ := 546

/-- The unsigned transaction: the identity, then the change unless it is dust. -/
def deployTx (funding : List FundingUtxo) (genesisScript : Bytes) (change : Block 20)
    (fee : Int64) :
    Except Err Tx := do
  let (b, _) ← addFunding txBuilderInit funding 0
  let b := txBuilderAddOutput b genesisScript identitySats
  let changeVal := (funding.map (·.satoshis)).sum - 1 - fee.toInt
  if feeDustFloor ≤ changeVal then
    return txBuilderAddOutput b (buildP2pkhScript change) (u64OfInt changeVal)
  else return b

/-- Every funding input is signed over the Elder's output script. -/
def deployFunding (elder : EcdsaKey) (funderSpk : Bytes) (funding : List FundingUtxo) :
    List ContractFundingInput :=
  funding.mapIdx fun i u => ⟨i, funderSpk, u64OfInt u.satoshis, elder⟩

structure Broadcast where
  rawHex : CString
  txid : CString
  deriving DecidableEq

/-- The live part of the run. Opening the client may fail. -/
def deployLive (woc : Except Err WocClient) (c : PreparedCharter) (genesisScript : Bytes) :
    Except Err Broadcast := do
  let elderH160 := P.hash160 c.elderPk.1
  let funderAddr := addressFromHash160 P elderH160 .mainnet
  let change ← changeH160 P E elderH160
  let woc ← woc
  let fw ← chainBroadcastFeeWindow (Int64.ofNat genesisScript.length + 1000) (deployFeePerKb E woc)
  let funding ← chainBroadcastSelectFunding woc funderAddr (1 + fw.recommended)
  let tx ← deployTx funding genesisScript change fw.recommended
  let rawHex ← buildContractDeploy P tx (deployFunding c.elder (buildP2pkhScript elderH160) funding)
  let txid ← chainBroadcastSend P woc rawHex
  return ⟨rawHex, txid⟩

end Live

section Run

/-- The sidecar a run has written, and how the run ended: without `Broadcast` it was a dry run. -/
structure DeployResult where
  sidecar : Option CStr
  outcome : Except Err (Option Broadcast)

def DeployResult.exitCode (r : DeployResult) : ℕ :=
  match r.outcome with
  | .ok _ => 0
  | .error _ => 1

/-- `deploy_run`. Whether the sidecar can be written is an answer of the file system. -/
def deployRun (P : Prims) (S : Secp256k1) (E : ScriptEnv)
    (writeFile : CString → CString → Except Err Unit) (woc : Except Err WocClient) : DeployResult :=
  match prepareCharter P S E with
  | .error e => ⟨none, .error e⟩
  | .ok c =>
    match writeFile (E.path "legal/ricardian-prose.sig") c.sigText.val with
    | .error e => ⟨none, .error e⟩
    | .ok () =>
      ⟨c.sigText, do
        let genesisScript ← identityScript P S c
        if E.confirmMainnetBroadcast then
          let sent ← deployLive P E woc c genesisScript
          return some sent
        else return none⟩

end Run

end Deploy

end BonsaiChain
