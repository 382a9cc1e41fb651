import BonsaiChain.CanonicalJson
import BonsaiChain.Ecdsa
import BonsaiChain.IdentityChainView
import BonsaiChain.TxChange

/-!
# The Ricardian charter

`ricardian_charter.c`: the bytes of the contract (prose, separator, canonical binding and a
newline), the hash over them, and the issuer's signature.
-/

namespace BonsaiChain

open CJson

section Types

/-- `deployment_binding_t`; an absent field is a null pointer. -/
structure DeploymentBinding where
  agentPubkey : Option CStr
  designatedValidatorPubkey : Option CStr
  validatorRabinPubkey : Option CStr
  maxSlashingTarget : Option CStr
  minSlashConfirmations : Option CStr
  initialSlashCheckpointHash : Option CStr
  deriving DecidableEq

structure CharterSignature where
  algo : Option CStr
  issuerPubkey : Option CStr
  signature : Option CStr
  ricardianHash : Option CStr
  binding : DeploymentBinding
  deriving DecidableEq

end Types

section Canonical

def bindingSeparator : CString := ascii "\n\n--- DEPLOYMENT BINDING (canonical) ---\n"

/-- A field's text; an absent one counts as the empty string. -/
def bindingText (field : Option CStr) : CStr := field.getD (cStr [])

/-- The members of the object that `charter_canonical_json` builds. -/
def bindingMembers (b : DeploymentBinding) : List (CStr × CStr) :=
  [(cStr (ascii "agentPubKey"), bindingText b.agentPubkey),
    (cStr (ascii "designatedValidatorPubKey"), bindingText b.designatedValidatorPubkey),
    (cStr (ascii "validatorRabinPubKey"), bindingText b.validatorRabinPubkey),
    (cStr (ascii "maxSlashingTarget"), bindingText b.maxSlashingTarget),
    (cStr (ascii "minSlashConfirmations"), bindingText b.minSlashConfirmations),
    (cStr (ascii "initialSlashCheckpointHash"), bindingText b.initialSlashCheckpointHash)]

def charterCanonicalJson (b : DeploymentBinding) : Except Err CString :=
  canonicalJson (.object ((bindingMembers b).map fun m => (m.1, .string m.2)))

def canonicalContractBytes (prose : CStr) (b : DeploymentBinding) : Except Err Bytes := do
  let json ← charterCanonicalJson b
  return prose.val ++ bindingSeparator ++ json ++ [10]

def computeRicardianHash (P : Prims) (prose : CStr) (b : DeploymentBinding) :
    Except Err CString := do
  let bytes ← canonicalContractBytes prose b
  return hexEncode (P.sha256 bytes).1

end Canonical

section Sign

def charterAlgo : CString := ascii "ECDSA-SHA256"

/-- `binding_copy`: absent fields become empty ones. -/
def bindingCopy (b : DeploymentBinding) : DeploymentBinding :=
  ⟨bindingText b.agentPubkey, bindingText b.designatedValidatorPubkey,
    bindingText b.validatorRabinPubkey, bindingText b.maxSlashingTarget,
    bindingText b.minSlashConfirmations, bindingText b.initialSlashCheckpointHash⟩

def signCharter (P : Prims) (prose : CStr) (b : DeploymentBinding) (issuer : EcdsaKey) :
    Except Err CharterSignature := do
  let bytes ← canonicalContractBytes prose b
  let der ← issuer.signLowS (P.sha256 bytes)
  let pub ← issuer.pubkey
  let rhash ← computeRicardianHash P prose b
  return { algo := cStr charterAlgo
           issuerPubkey := cStr (ecdsaPubkeyToHex pub)
           signature := cStr (hexEncode der)
           ricardianHash := cStr rhash
           binding := bindingCopy b }

def notVerified : CString := ascii "ECDSA signature does not verify under issuerPubKey"

/-- The checks of `verify_charter_signature` behind the hash. -/
def verifyIssuer (S : Secp256k1) (digest : Block 32) (sig : CharterSignature) : Option CString :=
  match sig.issuerPubkey.map fun hex => ecdsaPubkeyFromHex S hex.val with
  | some (.ok pub) =>
    match sig.signature.map fun hex => hexDecode hex.val with
    | some (.ok der) => if ecdsaVerify S digest der pub then none else some notVerified
    | _ => some notVerified
  | _ => some notVerified

/-- `verify_charter_signature`: `none` is `ok`, otherwise the reason. -/
def verifyCharterSignature (P : Prims) (S : Secp256k1) (prose : CStr) (sig : CharterSignature) :
    Option CString :=
  match computeRicardianHash P prose sig.binding with
  | .error _ => some (ascii "ricardian charter: failed to compute hash")
  | .ok expected =>
    match sig.ricardianHash with
    | none => some (ascii "ricardianHash mismatch (prose or binding changed since signing)")
    | some rhash =>
      if asciiLower expected ≠ asciiLower rhash.val then
        some (ascii "ricardianHash mismatch (prose or binding changed since signing)")
      else
        match canonicalContractBytes prose sig.binding with
        | .error _ => some (ascii "ricardian charter: failed to build contract bytes")
        | .ok bytes => verifyIssuer S (P.sha256 bytes) sig

end Sign

end BonsaiChain
