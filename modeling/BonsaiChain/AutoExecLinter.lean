import BonsaiChain.CJson
import BonsaiChain.Lib.Runs
import BonsaiChain.RabinAttestor
import BonsaiChain.ReleaseAnchorVerifier

/-!
# The auto-exec linter and its attestor

`attestor/auto_exec_linter.c`: the lint over the manifest of a release, and the attestor that signs
the activate digest of a clean release under its next sequence number. A call is given what fails in
it and how long its signing loop runs.
-/

namespace BonsaiChain

open Lib

section Lint

/-- `manifest_entry_t`. -/
structure ManifestEntry where
  path : CString
  content : Option CString
  deriving DecidableEq

/-- `lint_violation_t`. -/
structure LintViolation where
  path : CString
  rule : CString
  detail : CString
  deriving DecidableEq, Repr

/-- `lint_result_t`. -/
structure LintResult where
  clean : Bool
  violations : List LintViolation
  deriving DecidableEq, Repr

def packageJsonHooks : List CString :=
  [ascii "preinstall", ascii "install", ascii "postinstall", ascii "prepare", ascii "prepublish"]

def forbiddenExact : List CString :=
  [ascii ".claude/settings.json", ascii ".claude/settings.local.json", ascii ".vscode/tasks.json",
    ascii ".gemini/settings.json"]

def forbiddenPrefixes : List CString := [ascii ".cursor/rules", ascii ".idea/runconfigurations/"]

/-- `normalize_segments`: the segments of the lower-case path, without dots and blanks at their
ends. -/
def normalizeSegments (path : CString) : List CString :=
  let work := path.map fun c => CJson.tolower (if c = 92 then 47 else c)
  let start := if [46, 47].isPrefixOf work then work.drop 2 else work
  (start.splitOn 47).map fun seg => seg.rdropWhile fun c => c == 46 || c == 32

/-- `match_vector`: the rule of the first suffix of the path that is a known vector. -/
def matchVector : List CString → Option CString
  | [] => none
  | seg :: rest =>
    let tail := [47].intercalate (seg :: rest)
    match forbiddenExact.find? (· == tail), forbiddenPrefixes.find? (·.isPrefixOf tail) with
    | some exact, _ => some (ascii "forbidden-file:" ++ exact)
    | none, some start => some (ascii "forbidden-prefix:" ++ start)
    | none, none => matchVector rest

/-- What a `package.json` with this content violates. -/
def lintPackageJson (path content : CString) : List LintViolation :=
  match CJson.parse content with
  | none => [⟨path, ascii "unparseable-package-json",
      ascii "cannot rule out install hooks (fail closed)"⟩]
  | some root =>
    match CJson.getObjectItem (ascii "scripts") root with
    | none => []
    | some scripts =>
      (packageJsonHooks.filter (CJson.hasObjectItem · scripts)).map fun hook =>
        ⟨path, ascii "install-hook:" ++ hook, ascii "scripts." ++ hook ++ ascii " runs on install"⟩

def lintEntry (e : ManifestEntry) : List LintViolation :=
  let segs := normalizeSegments e.path
  let vector := (matchVector segs).map fun rule =>
    (⟨e.path, rule, ascii "known auto-exec vector"⟩ : LintViolation)
  let hooks :=
    match e.content with
    | some content =>
      if segs.getLast? = some (ascii "package.json") then lintPackageJson e.path content else []
    | none => []
  vector.toList ++ hooks

def lintManifest (manifest : List ManifestEntry) : LintResult :=
  let violations := manifest.flatMap lintEntry
  ⟨violations.isEmpty, violations⟩

end Lint

section Attestor

/-- `release_fields_t`. -/
structure ReleaseFields where
  genesisOutpoint : Option CString
  scope : Option CString
  version : Option CString
  bundleHash : Option CString
  fileSetRoot : Option CString
  announceTxid : Option CString
  deriving DecidableEq

def ReleaseFields.digest (sha256 : Bytes → Block 32) (r : ReleaseFields) : Except Err CString :=
  computeActivateDigest sha256 r.genesisOutpoint r.scope r.version r.bundleHash r.fileSetRoot
    r.announceTxid

/-- `attest_result_t` of a clean release. -/
structure LintAttestation where
  attestorPubkey : CString
  signature : CString
  digest : CString
  seq : UInt64
  deriving DecidableEq, Repr

/-- `attest_result_t`. -/
inductive AttestResult where
  | attested (att : LintAttestation)
  | dirty (result : LintResult)
  deriving DecidableEq, Repr

/-- `auto_exec_linter_attestor_s`; the public key is computed when it is first needed. -/
structure AutoExecLinterAttestor where
  key : RabinKey
  seq : UInt64
  pubKey : Option CString
  deriving DecidableEq

/-- The steps of one call for which there is no memory, and the code signing fails with if it
does. -/
structure AttestFaults where
  lint : Bool
  digest : Bool
  sign : Option Err
  pubKey : Bool
  copy : Bool
  deriving DecidableEq

/-- A call of `auto_exec_linter_attestor_attest`. -/
structure AttestCall where
  release : ReleaseFields
  manifest : List ManifestEntry
  faults : AttestFaults
  laps : ℕ
  deriving DecidableEq

namespace AutoExecLinterAttestor

/-- `auto_exec_linter_attestor_new`. -/
def new (key : RabinKey) (startSeq : UInt64) : Except Err AutoExecLinterAttestor :=
  if startSeq < 1 then .error .einval else .ok ⟨key, startSeq, none⟩

/-- `auto_exec_linter_attestor_pub_key`; `none` when there is no memory for it. -/
def getPubKey (a : AutoExecLinterAttestor) (fault : Bool) :
    Option CString × AutoExecLinterAttestor :=
  match a.pubKey with
  | some pk => (some pk, a)
  | none =>
    if fault then (none, a)
    else (some (attestorPubKey a.key), { a with pubKey := some (attestorPubKey a.key) })

def signDigest (sha256 : Bytes → Block 32) (a : AutoExecLinterAttestor) (call : AttestCall)
    (digest : CString) : Option (Except Err CString) :=
  match call.faults.sign with
  | some e => some (.error e)
  | none => rabinAttestorSignDigest sha256 call.laps a.key digest a.seq

/-- `auto_exec_linter_attestor_attest`; `none` when the call has not returned. -/
def attest (sha256 : Bytes → Block 32) (a : AutoExecLinterAttestor) (call : AttestCall) :
    Option (Except Err AttestResult) × AutoExecLinterAttestor :=
  let lr := lintManifest call.manifest
  if call.faults.lint then (some (.error .enomem), a)
  else if !lr.clean then (some (.ok (.dirty lr)), a)
  else
    match call.release.digest sha256 with
    | .error e => (some (.error e), a)
    | .ok digest =>
      if call.faults.digest then (some (.error .enomem), a)
      else
        let seq := a.seq
        match a.signDigest sha256 call digest with
        | none => (none, a)
        | some (.error e) => (some (.error e), a)
        | some (.ok signature) =>
          match a.getPubKey call.faults.pubKey with
          | (none, a) => (some (.error .enomem), a)
          | (some pk, a) =>
            if call.faults.copy then (some (.error .enomem), a)
            else (some (.ok (.attested ⟨pk, signature, digest, seq⟩)), { a with seq := seq + 1 })

end AutoExecLinterAttestor

end Attestor

section Run

/-- An attestor and the attestations it has produced, each with its call, in order. -/
structure LintAttestorRun where
  attestor : AutoExecLinterAttestor
  produced : List (AttestCall × LintAttestation)

/-- The attestation a call returned. -/
def attestationOf : Option (Except Err AttestResult) → Option LintAttestation
  | some (.ok (.attested att)) => some att
  | _ => none

def LintAttestorRun.step (sha256 : Bytes → Block 32) (r : LintAttestorRun) (call : AttestCall) :
    LintAttestorRun :=
  let (result, attestor) := r.attestor.attest sha256 call
  ⟨attestor, r.produced ++ ((attestationOf result).map fun att => (call, att)).toList⟩

namespace LintAttestation

/-- The digest as the contract takes it. -/
def digestBytes (att : LintAttestation) : Option (Block 32) :=
  match hexDecodeFixed att.digest 32 with
  | .error _ => none
  | .ok digest => if h : digest.length = 32 then some ⟨digest, h⟩ else none

/-- The attestation is the wire form of the signature. -/
def Carries (att : LintAttestation) (sig : RabinSig) : Prop :=
  att.signature = attestationWire att.seq sig

end LintAttestation

/-- No signature that was produced verifies for a message it was not made for, among those of the
attested digests with this sequence number. -/
def SignaturesBind (sha256 : Bytes → Block 32) (n seq : ℤ) (atts : List LintAttestation) : Prop :=
  ∀ att ∈ atts, ∀ sig, att.Carries sig → ∀ att' ∈ atts, ∀ digest ∈ att'.digestBytes,
    ∀ msg ∈ (arpAttestationMsg seq digest).toOption, buildMsgBytes att.seq att.digest ≠ .ok msg →
      rabinVerifierVerifySig sha256 msg sig.onChain n = false

end Run

end BonsaiChain
