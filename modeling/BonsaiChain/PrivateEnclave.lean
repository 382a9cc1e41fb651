import BonsaiChain.Common

/-!
# The private enclave

Payloads are stored off chain, encrypted under the vault key of an identity; what goes on chain is a
commitment to the payload, keyed by that key, and a hash of the declared provenance. The vault is a
function of its own state. AES-256-GCM and SHA-256 are parameters, and each call is given the random
bytes and the clock reading it takes.
-/

namespace BonsaiChain

section Provenance

/-- `provenance_record_t`; `none` is a null pointer. -/
structure ProvenanceRecord where
  datasetId : Option CString
  modelId : Option CString
  version : Option CString
  licenceTag : Option CString
  deriving DecidableEq, Repr

/-- The fields in the order of the preimage, an absent one as the empty string. -/
def ProvenanceRecord.texts (p : ProvenanceRecord) : List CString :=
  [p.datasetId, p.modelId, p.version, p.licenceTag].map fun field => field.getD []

def zeroProvenance : CString := List.replicate 64 48

def provenanceLp (s : Option CString) (out : Bytes) : Except Err Bytes := do
  let s := s.getD []
  if 255 < s.length then throw .erange
  let out ← byteBufAppend out [UInt8.ofNat s.length]
  byteBufAppend out s

def provenancePreimage (p : ProvenanceRecord) : Except Err Bytes := do
  let out ← provenanceLp p.datasetId []
  let out ← provenanceLp p.modelId out
  let out ← provenanceLp p.version out
  provenanceLp p.licenceTag out

def computeProvenanceHash (sha256 : Bytes → Bytes) (p : ProvenanceRecord) : Except Err CString :=
  (provenancePreimage p).map fun preimage => hexEncode (sha256 preimage)

end Provenance

section Enclave

/-- `sealed_record_t`; an absent provenance is `has_provenance = false`. -/
structure SealedRecord where
  identityId : CString
  ciphertext : CString
  iv : CString
  authTag : CString
  sealedAt : Int
  provenance : Option ProvenanceRecord
  deriving DecidableEq, Repr

/-- What `private_enclave_seal_action` writes on success. -/
structure SealedAction where
  record : SealedRecord
  actionHash : CString
  provenanceHash : CString
  deriving DecidableEq, Repr

/-- `key_vault_t.ensure_key` over the vault's state. -/
abbrev EnsureKey (ν : Type) := ν → CString → Except Err (Block 32) × ν

/-- The primitives of OpenSSL: key, initialization vector, plaintext and associated data give the
ciphertext and its tag. -/
structure EnclaveCrypto where
  sha256 : Bytes → Bytes
  aes256gcmSeal : Block 32 → Block 12 → Bytes → Bytes → Except Err (Bytes × Block 16)

/-- What one seal takes from the random source and the clock; no random bytes is a failure. -/
structure SealReads where
  iv : Option (Block 12)
  now : Int

def priscillaActionDomain : CString := ascii "PRISCILLA_ACTION_V1"

def actionCommitment (crypto : EnclaveCrypto) (key : Block 32) (payload : Bytes) :
    Except Err CString := do
  let pre ← byteBufAppend [] priscillaActionDomain
  let pre ← byteBufAppend pre key.val
  let pre ← byteBufAppend pre payload
  return hexEncode (crypto.sha256 pre)

/-- What `private_enclave_seal` does with the key it was given. -/
def sealUnder (crypto : EnclaveCrypto) (key : Block 32) (identityId : CString) (plaintext : Bytes)
    (reads : SealReads) : Except Err SealedRecord :=
  match reads.iv with
  | none => .error .ecrypto
  | some iv => do
    let (ciphertext, tag) ← crypto.aes256gcmSeal key iv plaintext identityId
    return ⟨identityId, hexEncode ciphertext, hexEncode iv.val, hexEncode tag.val, reads.now, none⟩

variable {ν : Type}

/-- `private_enclave_seal`; the plaintext `none` is a null pointer with a length. -/
def privateEnclaveSeal (crypto : EnclaveCrypto) (ensureKey : EnsureKey ν) (v : ν)
    (identityId : CString) (plaintext : Option Bytes) (reads : SealReads) :
    Except Err SealedRecord × ν :=
  match plaintext with
  | none => (.error .einval, v)
  | some plaintext =>
    match ensureKey v identityId with
    | (.error e, v) => (.error e, v)
    | (.ok key, v) => (sealUnder crypto key identityId plaintext reads, v)

/-- The record with its provenance and the hash of that. -/
def attachProvenance (crypto : EnclaveCrypto) (record : SealedRecord)
    (provenance : Option ProvenanceRecord) (actionHash : CString) : Except Err SealedAction :=
  match provenance with
  | none => .ok ⟨record, actionHash, zeroProvenance⟩
  | some p => do
    let provenanceHash ← computeProvenanceHash crypto.sha256 p
    return ⟨{ record with provenance := some p }, actionHash, provenanceHash⟩

def privateEnclaveSealAction (crypto : EnclaveCrypto) (ensureKey : EnsureKey ν) (v : ν)
    (identityId : CString) (payload : Option Bytes) (provenance : Option ProvenanceRecord)
    (reads : SealReads) : Except Err SealedAction × ν :=
  match payload with
  | none => (.error .einval, v)
  | some bytes =>
    match ensureKey v identityId with
    | (.error e, v) => (.error e, v)
    | (.ok key, v) =>
      match actionCommitment crypto key bytes with
      | .error e => (.error e, v)
      | .ok actionHash =>
        match privateEnclaveSeal crypto ensureKey v identityId payload reads with
        | (.error e, v) => (.error e, v)
        | (.ok record, v) => (attachProvenance crypto record provenance actionHash, v)

end Enclave

section Open

/-- `key_vault_t.get_key` over the vault's state; `none` is a key that is absent or shredded. -/
abbrev GetKey (ν : Type) := ν → CString → Except Err (Option (Block 32))

/-- `key_vault_t.shred`: whether there was a key. -/
abbrev ShredKey (ν : Type) := ν → CString → Except Err Bool × ν

/-- With the way back: key, initialization vector, ciphertext, associated data and tag give the
plaintext. -/
structure EnclaveAead extends EnclaveCrypto where
  aes256gcmOpen : Block 32 → Block 12 → Bytes → Bytes → Block 16 → Except Err Bytes

variable {ν : Type}

/-- `private_enclave_recompute_action_hash`; an absent key is no error. -/
def privateEnclaveRecomputeActionHash (crypto : EnclaveCrypto) (getKey : GetKey ν) (v : ν)
    (identityId : CString) (payload : Option Bytes) : Except Err (Option CString) :=
  match payload with
  | none => .error .einval
  | some payload =>
    match getKey v identityId with
    | .error e => .error e
    | .ok none => .ok none
    | .ok (some key) => (actionCommitment crypto key payload).map some

/-- `hex_decode_fixed` into a buffer of `n` bytes. -/
def hexDecodeBlock (hex : CString) (n : ℕ) : Option (Block n) :=
  match hexDecodeFixed hex n with
  | .error _ => none
  | .ok bs => if h : bs.length = n then some ⟨bs, h⟩ else none

/-- What `private_enclave_open` does with the key it was given: every failure is one of
integrity. -/
def openUnder (crypto : EnclaveAead) (key : Block 32) (record : SealedRecord) : Except Err Bytes :=
  match hexDecodeBlock record.iv 12, hexDecodeBlock record.authTag 16,
    hexDecode record.ciphertext with
  | some iv, some tag, .ok ciphertext =>
    match crypto.aes256gcmOpen key iv ciphertext record.identityId tag with
    | .error _ => .error .eintegrity
    | .ok plaintext => .ok plaintext
  | _, _, _ => .error .eintegrity

/-- `private_enclave_open`: the plaintext that is appended to the caller's buffer. -/
def privateEnclaveOpen (crypto : EnclaveAead) (getKey : GetKey ν) (v : ν) (record : SealedRecord) :
    Except Err Bytes :=
  match getKey v record.identityId with
  | .error e => .error e
  | .ok none => .error .eshredded
  | .ok (some key) => openUnder crypto key record

end Open

section Shred

variable {ν : Type}

def shredMarkerDomain : CString := ascii "SHRED_V1"

def privateEnclaveShredMarker (crypto : EnclaveCrypto) (identityId : CString) :
    Except Err CString := do
  let pre ← byteBufAppend [] shredMarkerDomain
  let pre ← byteBufAppend pre identityId
  return hexEncode (crypto.sha256 pre)

/-- `private_enclave_shred`: whether there was a key, and the marker. -/
def privateEnclaveShred (crypto : EnclaveCrypto) (shred : ShredKey ν) (v : ν)
    (identityId : CString) : Except Err (Bool × CString) × ν :=
  match shred v identityId with
  | (.error e, v) => (.error e, v)
  | (.ok had, v) => ((privateEnclaveShredMarker crypto identityId).map (had, ·), v)

end Shred

end BonsaiChain
