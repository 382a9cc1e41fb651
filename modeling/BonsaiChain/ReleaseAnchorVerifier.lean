import BonsaiChain.Common

/-!
# The release gate

`release_anchor_verifier_verify` runs its stages in order and stops at the first that denies. The
SPV client, the attestation verifier and the revocation oracle are functions of a state they share,
so any call may answer anything. Heights and depths are integers: the bounds of `int64_t` only
matter to sums that overflow it.
-/

namespace BonsaiChain

open Lib

section Digest

/-- The length of a field as a `uint32_t`, most significant byte first. -/
def lengthPrefix (field : CString) : Bytes := (leBytes 4 field.length).reverse

def appendField (pre : Bytes) (field : CString) : Except Err Bytes := do
  let pre ← byteBufAppend pre (lengthPrefix field)
  byteBufAppend pre field

def activateDomain : Bytes := ascii "ARP1_ACTIVATE_V1"

/-- `compute_activate_digest`; a null field is rejected. -/
def computeActivateDigest (sha256 : Bytes → Block 32) (genesisOutpoint scope version bundleHash
    fileSetRoot announceTxid : Option CString) : Except Err CString :=
  match [genesisOutpoint, scope, version, bundleHash, fileSetRoot, announceTxid].mapM id with
  | none => .error .einval
  | some fields => do
    let pre ← byteBufAppend [] activateDomain
    let pre ← fields.foldlM appendField pre
    return hexEncode (sha256 pre).1

/-- What the digest of a release is computed of. -/
structure ActivateFields where
  genesisOutpoint : CString
  scope : CString
  version : CString
  bundleHash : CString
  fileSetRoot : CString
  announceTxid : CString
  deriving DecidableEq

namespace ActivateFields

variable (f : ActivateFields)

def toList : List CString :=
  [f.genesisOutpoint, f.scope, f.version, f.bundleHash, f.fileSetRoot, f.announceTxid]

/-- The length of every field is a `uint32_t`. -/
def Fits : Prop := ∀ field ∈ f.toList, field.length < 2 ^ 32

/-- What is hashed. -/
def preimage : Except Err Bytes := do
  let pre ← byteBufAppend [] activateDomain
  f.toList.foldlM appendField pre

def digest (sha256 : Bytes → Block 32) : Except Err CString :=
  computeActivateDigest sha256 (some f.genesisOutpoint) (some f.scope) (some f.version)
    (some f.bundleHash) (some f.fileSetRoot) (some f.announceTxid)

end ActivateFields

end Digest

section Data

/-- `trusted_publisher_t`. -/
structure TrustedPublisher where
  genesisOutpoint : CString
  namespaceScopes : List (Option CString)
  minDepth : ℤ
  minQuorum : ℤ
  attestorPubkeys : List CString
  maxStaleness : ℤ

/-- `spv_lookup_t`. -/
structure SpvLookup where
  depth : ℤ
  blockHeight : ℤ
  merkleVerified : Bool

/-- `spv_client_t`; a transaction that is not found is `none`. -/
structure SpvClient (σ : Type) where
  lookup : σ → Option CString → Except Err (Option SpvLookup) × σ
  tipHeight : σ → Except Err ℤ × σ

/-- `attestation_verifier_t`. -/
structure AttestationVerifier (σ : Type) where
  verify : σ → CString → Option CString → Option CString → Except Err Bool × σ

/-- `release_revocation_oracle_t`. -/
structure ReleaseRevocationOracle (σ : Type) where
  isReleaseRevoked : σ → CString → CString → Option CString → Except Err Bool × σ

/-- `release_attestation_t`. -/
structure ReleaseAttestation where
  attestorPubkey : CString
  signature : Option CString

/-- `publish_ref_t`. The code compares the genesis outpoint and the scope without testing them for
null. -/
structure PublishRef where
  genesisOutpoint : CString
  scope : CString
  version : Option CString
  bundleHash : Option CString
  fileSetRoot : Option CString
  announceTxid : Option CString
  activateTxid : Option CString
  activateDigest : Option CString
  attestations : List ReleaseAttestation

/-- `local_artifact_t`. -/
structure LocalArtifact where
  bundleHash : Option CString
  fileSetRoot : Option CString

/-- `deny_reason_t` without `DENY_NONE`, which is no reason. -/
inductive DenyReason where
  | unknownPublisher | scopeNotInNamespace | announceUnconfirmed | insufficientDepth
  | announceNoMerkleProof | activateUnconfirmed | activateNoMerkleProof | staleChain
  | bundleHashMismatch | filesetRootMismatch | digestMismatch | insufficientQuorum
  | duplicateAttestor | attestorNotInSet | badAttestation | releaseRevoked
  deriving DecidableEq, Repr

/-- `verify_result_t`. -/
structure VerifyResult where
  ok : Bool
  reason : Option DenyReason
  detail : Option CString
  deriving DecidableEq, Repr

/-- `verify_opts_t`. -/
structure VerifyOpts where
  failClosed : Bool
  hasFailClosed : Bool

/-- `release_anchor_verifier_s`. -/
structure ReleaseAnchorVerifier (σ : Type) where
  spv : SpvClient σ
  attestor : AttestationVerifier σ
  revocation : ReleaseRevocationOracle σ

/-- How a stage ends the verification: the call returns a code, or it denies. -/
inductive Stop where
  | rc (e : Err)
  | deny (reason : DenyReason) (detail : Option CString)
  deriving DecidableEq, Repr

end Data

namespace ReleaseAnchorVerifier

section Compare

/-- `const_eq`. -/
def constEq (a b : Option CString) : Bool :=
  match a, b with
  | some a, some b =>
    a.length == b.length && (List.zipWith (· ^^^ ·) a b).foldl (· ||| ·) 0 == 0
  | _, _ => false

/-- `scope_in_namespace`. -/
def scopeInNamespace (scope : CString) (namespaceScopes : List (Option CString)) : Bool :=
  namespaceScopes.any fun ns =>
    match ns with
    | none => false
    | some ns =>
      if ns.getLast? = some 42 then ns.dropLast.isPrefixOf scope else scope == ns

end Compare

section Stages

def deny {α : Type} (reason : DenyReason) (detail : Option CString) : Except Stop α :=
  .error (.deny reason detail)

variable {σ : Type} (v : ReleaseAnchorVerifier σ) (s : σ) (ref : PublishRef)
  (publisher : TrustedPublisher)

def trustedPublisher (publisher : Option TrustedPublisher) : Except Stop TrustedPublisher :=
  match publisher with
  | none => deny .unknownPublisher (some (ascii "no trusted publisher for genesisOutpoint"))
  | some p =>
    if p.genesisOutpoint ≠ ref.genesisOutpoint then
      deny .unknownPublisher (some (ascii "no trusted publisher for genesisOutpoint"))
    else .ok p

def checkDigest (sha256 : Bytes → Block 32) : Except Stop Unit :=
  match computeActivateDigest sha256 (some ref.genesisOutpoint) (some ref.scope) ref.version
      ref.bundleHash ref.fileSetRoot ref.announceTxid with
  | .error e => .error (.rc e)
  | .ok computed =>
    if !constEq ref.activateDigest (some computed) then
      deny .digestMismatch (some (ascii "activateDigest does not commit to this release"))
    else .ok ()

def lookupAnnounce : Except Stop (SpvLookup × σ) :=
  match v.spv.lookup s ref.announceTxid with
  | (.ok (some announce), s) =>
    if !announce.merkleVerified then deny .announceNoMerkleProof none
    else if announce.depth < publisher.minDepth then
      deny .insufficientDepth (some (ascii "depth < required"))
    else .ok (announce, s)
  | _ => deny .announceUnconfirmed none

def lookupActivate : Except Stop σ :=
  match v.spv.lookup s ref.activateTxid with
  | (.ok (some activate), s) =>
    if activate.depth < 1 then deny .activateUnconfirmed none
    else if !activate.merkleVerified then deny .activateNoMerkleProof none
    else .ok s
  | _ => deny .activateUnconfirmed none

/-- The tip the announcement is measured against: its own height when the code goes on without
one. -/
def effectiveTip (announce : SpvLookup) (failClosed : Bool) : Except Err ℤ → Except Stop ℤ
  | .ok tip => .ok tip
  | .error _ =>
    if failClosed then deny .staleChain (some (ascii "tip height unavailable (fail-closed)"))
    else .ok (announce.blockHeight + announce.depth)

def checkFreshness (announce : SpvLookup) (failClosed : Bool) : Except Stop σ := do
  let (answer, s) := v.spv.tipHeight s
  let tip ← effectiveTip announce failClosed answer
  if tip - (announce.blockHeight + announce.depth) > publisher.maxStaleness then
    throw (.deny .staleChain (some (ascii "staleness > maxStaleness")))
  return s

/-- The loop over the attestations: `seen` are the keys of those before, all of which were valid. -/
def checkAttestations : List CString → List ReleaseAttestation → σ → Except Stop (ℤ × σ)
  | seen, [], s => .ok (seen.length, s)
  | seen, att :: rest, s =>
    if att.attestorPubkey ∈ seen then deny .duplicateAttestor (some att.attestorPubkey)
    else if att.attestorPubkey ∉ publisher.attestorPubkeys then
      deny .attestorNotInSet (some att.attestorPubkey)
    else
      match v.attestor.verify s att.attestorPubkey ref.activateDigest att.signature with
      | (.ok true, s) => checkAttestations (att.attestorPubkey :: seen) rest s
      | _ => deny .badAttestation (some att.attestorPubkey)

def checkQuorum (valid : ℤ) : Except Stop Unit :=
  if valid < publisher.minQuorum then
    deny .insufficientQuorum (some (ascii "valid < required"))
  else .ok ()

def checkRevocation (failClosed : Bool) : Except Stop Unit :=
  match v.revocation.isReleaseRevoked s ref.genesisOutpoint ref.scope ref.version with
  | (.error _, _) =>
    if failClosed then
      deny .releaseRevoked (some (ascii "revocation state unavailable (fail-closed)"))
    else .ok ()
  | (.ok revoked, _) => if revoked then deny .releaseRevoked none else .ok ()

end Stages

section Verify

variable {σ : Type} (sha256 : Bytes → Block 32) (v : ReleaseAnchorVerifier σ) (s : σ)
  (ref : PublishRef) (artifact : LocalArtifact) (publisher : Option TrustedPublisher)

/-- Whether an unavailable tip or revocation state denies; it does unless the options say no. -/
def failClosed (opts : Option VerifyOpts) : Bool :=
  opts.all fun o => if o.hasFailClosed then o.failClosed else true

def stages (failClosed : Bool) : Except Stop Unit := do
  let publisher ← trustedPublisher ref publisher
  if !scopeInNamespace ref.scope publisher.namespaceScopes then
    throw (.deny .scopeNotInNamespace (some (ascii "scope not in namespace")))
  if !constEq artifact.bundleHash ref.bundleHash then
    throw (.deny .bundleHashMismatch none)
  if !constEq artifact.fileSetRoot ref.fileSetRoot then
    throw (.deny .filesetRootMismatch none)
  checkDigest ref sha256
  let (announce, s) ← lookupAnnounce v s ref publisher
  let s ← lookupActivate v s ref
  let s ← checkFreshness v s publisher announce failClosed
  let (valid, s) ← checkAttestations v ref publisher [] ref.attestations s
  checkQuorum publisher valid
  checkRevocation v s ref failClosed

/-- `release_anchor_verifier_verify`; a call that returns an error has reported nothing. -/
def verify (opts : Option VerifyOpts) : Except Err VerifyResult :=
  match stages sha256 v s ref artifact publisher (failClosed opts) with
  | .ok () => .ok ⟨true, none, none⟩
  | .error (.deny reason detail) => .ok ⟨false, some reason, detail⟩
  | .error (.rc e) => .error e

end Verify

section Admission

variable {σ : Type} (v : ReleaseAnchorVerifier σ) (ref : PublishRef) (publisher : TrustedPublisher)
  (failClosed : Bool)

/-- A scope of the namespace: one it names, or one that starts with a prefix it stars. -/
def InNamespace (publisher : TrustedPublisher) (scope : CString) : Prop :=
  ∃ ns, some ns ∈ publisher.namespaceScopes ∧
    (scope = ns ∨ ∃ start, ns = start ++ [42] ∧ start <+: scope)

/-- Two strings that are there and equal. -/
def Same (a b : Option CString) : Prop := ∃ s, a = some s ∧ b = some s

/-- The announcement is found, proven and buried deep enough; the client is left in `s'`. -/
def Announced (s : σ) (announce : SpvLookup) (s' : σ) : Prop :=
  v.spv.lookup s ref.announceTxid = (.ok (some announce), s')
    ∧ announce.merkleVerified = true ∧ publisher.minDepth ≤ announce.depth

def Activated (s s' : σ) : Prop :=
  ∃ activate, v.spv.lookup s ref.activateTxid = (.ok (some activate), s')
    ∧ activate.merkleVerified = true ∧ 1 ≤ activate.depth

/-- The tip is at most the staleness allowed past the announcement. A missing tip is as far as the
announcement itself, and is not accepted when failing closed. -/
def Fresh (announce : SpvLookup) (s s' : σ) : Prop :=
  ∃ answer, v.spv.tipHeight s = (answer, s') ∧
    match answer with
    | .ok tip => tip - (announce.blockHeight + announce.depth) ≤ publisher.maxStaleness
    | .error _ => failClosed = false ∧ 0 ≤ publisher.maxStaleness

/-- The attestations verify over the digest, asked in order. -/
def Verified : List ReleaseAttestation → σ → σ → Prop
  | [], s, s' => s = s'
  | att :: rest, s, s' => ∃ s₁, v.attestor.verify s att.attestorPubkey ref.activateDigest
      att.signature = (.ok true, s₁) ∧ Verified rest s₁ s'

/-- A quorum of distinct attestors of the set, every one of which verified. -/
structure Attested (s s' : σ) : Prop where
  distinct : (ref.attestations.map ReleaseAttestation.attestorPubkey).Nodup
  charter : ∀ att ∈ ref.attestations, att.attestorPubkey ∈ publisher.attestorPubkeys
  verified : Verified v ref ref.attestations s s'
  quorum : publisher.minQuorum ≤ ref.attestations.length

def NotRevoked (s : σ) : Prop :=
  match (v.revocation.isReleaseRevoked s ref.genesisOutpoint ref.scope ref.version).1 with
  | .ok revoked => revoked = false
  | .error _ => failClosed = false

/-- Everything an admitted release has, each answer asked for in the state the one before it
left. -/
structure Admits (sha256 : Bytes → Block 32) (s : σ) (artifact : LocalArtifact) : Prop where
  genesis : publisher.genesisOutpoint = ref.genesisOutpoint
  scope : InNamespace publisher ref.scope
  bundle : Same artifact.bundleHash ref.bundleHash
  fileSet : Same artifact.fileSetRoot ref.fileSetRoot
  digest : ∃ d, ref.activateDigest = some d ∧
    computeActivateDigest sha256 (some ref.genesisOutpoint) (some ref.scope) ref.version
      ref.bundleHash ref.fileSetRoot ref.announceTxid = .ok d
  answers : ∃ announce s₁ s₂ s₃ s₄, Announced v ref publisher s announce s₁ ∧
    Activated v ref s₁ s₂ ∧ Fresh v publisher failClosed announce s₂ s₃ ∧
    Attested v ref publisher s₃ s₄ ∧ NotRevoked v ref failClosed s₄

end Admission

end ReleaseAnchorVerifier

end BonsaiChain
