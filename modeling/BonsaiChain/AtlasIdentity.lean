import BonsaiChain.CharterParams
import BonsaiChain.RicardianCharter
import BonsaiChain.RicardianTea

/-!
# The construction of an identity

`build_atlas_instance` of `atlas_identity.c`: from the prose and the deployment parameters to the
binding, the ricardian hash and the RicardianTea instance that deploy and audit share.
-/

namespace BonsaiChain

structure AtlasDeploymentParams where
  elderPubkey : Bytes
  agentPubkey : Bytes
  designatedValidatorPubkey : ℤ
  validatorRabinPubkey : ℤ
  maxSlashingTarget : ℤ
  minSlashConfirmations : ℤ
  initialSlashCheckpointHash : Bytes
  deriving DecidableEq, Repr

structure AtlasInstance where
  inst : RicardianTea
  ricardianHash : CString
  binding : DeploymentBinding
  charter : CharterParams

/-- Keys and hashes are bound as lower-case hex, integers in decimal; the Elder's key is not
bound. -/
def AtlasDeploymentParams.binding (p : AtlasDeploymentParams) : DeploymentBinding where
  agentPubkey := cStr (hexEncode p.agentPubkey)
  designatedValidatorPubkey := cStr (decimalInt p.designatedValidatorPubkey)
  validatorRabinPubkey := cStr (decimalInt p.validatorRabinPubkey)
  maxSlashingTarget := cStr (decimalInt p.maxSlashingTarget)
  minSlashConfirmations := cStr (decimalInt p.minSlashConfirmations)
  initialSlashCheckpointHash := cStr (hexEncode p.initialSlashCheckpointHash)

/-- The constructor arguments. -/
def atlasParams (p : AtlasDeploymentParams) (charter : CharterParams) (ricardianHash : Bytes) :
    RicardianTeaParams where
  owner := p.elderPubkey
  agent := p.agentPubkey
  ricardianHash := ricardianHash
  perTxLimit := charter.perTxLimit
  dailyLimit := charter.dailyLimit
  windowDuration := charter.windowDuration
  graduationThreshold := charter.graduationThreshold
  validatorThreshold := charter.validatorThreshold
  designatedValidatorPubkey := p.designatedValidatorPubkey
  validatorRabinPubkey := p.validatorRabinPubkey
  maxSlashingTarget := p.maxSlashingTarget
  minSlashConfirmations := p.minSlashConfirmations
  initialSlashCheckpointHash := p.initialSlashCheckpointHash

def buildAtlasInstance (P : Prims) (prose : CStr) (p : AtlasDeploymentParams)
    (artifact : ScryptArtifact) : Except Err AtlasInstance := do
  let charter ← (parseCharterParams prose).mapError (·.1)
  let rhash ← computeRicardianHash P prose p.binding
  let ricardianHash ← hexDecode rhash
  let params := atlasParams p charter ricardianHash
  return ⟨⟨artifact, params, ricardianTeaGenesisState params⟩, rhash, p.binding, charter⟩

end BonsaiChain
