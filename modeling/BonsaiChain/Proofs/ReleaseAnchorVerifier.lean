import BonsaiChain.Lib.Results
import BonsaiChain.ReleaseAnchorVerifier

/-!
# The release gate admits exactly the releases that pass every stage

Each stage succeeds exactly under its own condition, and the stages run one after another, so a
verification reports ok exactly when all conditions hold, and carries a reason when it does not.
-/

namespace BonsaiChain

open Lib

namespace ReleaseAnchorVerifier

section Compare

theorem xor_or_eq_zero : ∀ (a b : CString) (d : UInt8), a.length = b.length →
    ((List.zipWith (· ^^^ ·) a b).foldl (· ||| ·) d = 0 ↔ d = 0 ∧ a = b)
  | [], [], d, _ => by simp
  | [], _ :: _, d, h => by simp at h
  | _ :: _, [], d, h => by simp at h
  | x :: a, y :: b, d, h => by
    have hlen : a.length = b.length := by simpa using h
    rw [List.zipWith_cons_cons, List.foldl_cons, xor_or_eq_zero a b _ hlen, List.cons.injEq,
      UInt8.or_eq_zero_iff, UInt8.xor_eq_zero_iff, and_assoc]

theorem constEq_iff {a b : Option CString} : constEq a b = true ↔ Same a b := by
  unfold constEq Same
  rcases a with _ | a
  · simp
  rcases b with _ | b
  · simp
  simp only [Bool.and_eq_true, beq_iff_eq, Option.some.injEq, exists_eq_left']
  constructor
  · rintro ⟨hlen, h⟩
    exact ((xor_or_eq_zero a b 0 hlen).mp h).2.symm
  · rintro rfl
    exact ⟨rfl, (xor_or_eq_zero _ _ 0 rfl).mpr ⟨rfl, rfl⟩⟩

theorem scopeInNamespace_iff {publisher : TrustedPublisher} {scope : CString} :
    scopeInNamespace scope publisher.namespaceScopes = true ↔ InNamespace publisher scope := by
  unfold scopeInNamespace InNamespace
  rw [List.any_eq_true]
  constructor
  · rintro ⟨_ | ns, hmem, h⟩
    · simp at h
    refine ⟨ns, hmem, ?_⟩
    simp only [] at h
    split_ifs at h with hstar
    · refine .inr ⟨ns.dropLast, ?_, by simpa using h⟩
      exact (List.dropLast_append_getLast? 42 hstar).symm
    · exact .inl (by simpa using h)
  · rintro ⟨ns, hmem, h⟩
    refine ⟨some ns, hmem, ?_⟩
    simp only []
    split_ifs with hstar
    · rcases h with rfl | ⟨start, rfl, hstart⟩
      · simpa using List.dropLast_prefix scope
      · simpa using hstart
    · rcases h with rfl | ⟨start, rfl, -⟩
      · simp
      · simp at hstar

end Compare

section Stages

variable {σ : Type} {v : ReleaseAnchorVerifier σ} {s s' : σ} {ref : PublishRef}
  {publisher : TrustedPublisher} {failClosed : Bool}

theorem trustedPublisher_ok {p : Option TrustedPublisher} :
    trustedPublisher ref p = .ok publisher ↔
      p = some publisher ∧ publisher.genesisOutpoint = ref.genesisOutpoint := by
  unfold trustedPublisher deny
  rcases p with _ | p
  · simp
  · simp only [error_ite_eq_ok, Option.some.injEq, Except.ok.injEq, not_not]
    constructor
    · rintro ⟨h, rfl⟩
      exact ⟨rfl, h⟩
    · rintro ⟨rfl, h⟩
      exact ⟨h, rfl⟩

theorem checkDigest_ok {sha256 : Bytes → Block 32} :
    checkDigest ref sha256 = .ok () ↔ ∃ d, ref.activateDigest = some d ∧
      computeActivateDigest sha256 (some ref.genesisOutpoint) (some ref.scope) ref.version
        ref.bundleHash ref.fileSetRoot ref.announceTxid = .ok d := by
  unfold checkDigest deny
  cases computeActivateDigest sha256 (some ref.genesisOutpoint) (some ref.scope) ref.version
      ref.bundleHash ref.fileSetRoot ref.announceTxid with
  | error e => simp
  | ok d =>
    simp only [error_ite_eq_ok, and_true, Bool.not_eq_true', Bool.not_eq_false, constEq_iff, Same,
      Option.some.injEq, Except.ok.injEq]

theorem lookupAnnounce_ok {announce : SpvLookup} :
    lookupAnnounce v s ref publisher = .ok (announce, s') ↔
      Announced v ref publisher s announce s' := by
  unfold lookupAnnounce Announced deny
  rcases v.spv.lookup s ref.announceTxid with ⟨e | _ | a, s₁⟩
  · simp
  · simp
  · simp only [error_ite_eq_ok, Bool.not_eq_true', Bool.not_eq_false, not_lt, Except.ok.injEq,
      Prod.mk.injEq, Option.some.injEq]
    constructor
    · rintro ⟨hproof, hdepth, rfl, rfl⟩
      exact ⟨⟨rfl, rfl⟩, hproof, hdepth⟩
    · rintro ⟨⟨rfl, rfl⟩, hproof, hdepth⟩
      exact ⟨hproof, hdepth, rfl, rfl⟩

theorem lookupActivate_ok : lookupActivate v s ref = .ok s' ↔ Activated v ref s s' := by
  unfold lookupActivate Activated deny
  rcases v.spv.lookup s ref.activateTxid with ⟨e | _ | a, s₁⟩
  · simp
  · simp
  · simp only [error_ite_eq_ok, Bool.not_eq_true', Bool.not_eq_false, not_lt, Except.ok.injEq,
      Prod.mk.injEq, Option.some.injEq]
    constructor
    · rintro ⟨hdepth, hproof, rfl⟩
      exact ⟨a, ⟨rfl, rfl⟩, hproof, by omega⟩
    · rintro ⟨_, ⟨rfl, rfl⟩, hproof, hdepth⟩
      exact ⟨by omega, hproof, rfl⟩

theorem checkFreshness_ok {announce : SpvLookup} :
    checkFreshness v s publisher announce failClosed = .ok s' ↔
      Fresh v publisher failClosed announce s s' := by
  unfold checkFreshness Fresh effectiveTip deny
  rcases v.spv.tipHeight s with ⟨e | tip, s₁⟩
  · simp only [bind_eq_ok, guard_eq_ok, pure_eq_ok, error_ite_eq_ok, Except.ok.injEq, not_lt,
      Prod.mk.injEq]
    constructor
    · rintro ⟨tip, ⟨hopen, rfl⟩, hstale, rfl⟩
      exact ⟨.error e, ⟨rfl, rfl⟩, by simpa using hopen, by omega⟩
    · rintro ⟨_, ⟨rfl, rfl⟩, hopen, hstale⟩
      exact ⟨_, ⟨by simpa using hopen, rfl⟩, by omega, rfl⟩
  · simp only [bind_eq_ok, guard_eq_ok, pure_eq_ok, Except.ok.injEq, not_lt, Prod.mk.injEq]
    constructor
    · rintro ⟨_, rfl, hstale, rfl⟩
      exact ⟨.ok tip, ⟨rfl, rfl⟩, hstale⟩
    · rintro ⟨_, ⟨rfl, rfl⟩, hstale⟩
      exact ⟨tip, rfl, hstale, rfl⟩

/-- The loop gets to its end exactly when no key repeats one seen, every key is in the set and every
attestation verifies in its turn. -/
theorem checkAttestations_ok (valid : ℤ) : ∀ (atts : List ReleaseAttestation) (seen : List CString)
    (s : σ), checkAttestations v ref publisher seen atts s = .ok (valid, s') ↔
      ((atts.map ReleaseAttestation.attestorPubkey).Nodup ∧
        ∀ att ∈ atts, att.attestorPubkey ∉ seen) ∧
      (∀ att ∈ atts, att.attestorPubkey ∈ publisher.attestorPubkeys) ∧
      Verified v ref atts s s' ∧ valid = seen.length + atts.length
  | [], seen, s => by
    simp only [checkAttestations, Verified, Except.ok.injEq, Prod.mk.injEq]
    constructor
    · rintro ⟨rfl, rfl⟩
      simp
    · rintro ⟨-, -, rfl, rfl⟩
      simp
  | att :: rest, seen, s => by
    have ih := checkAttestations_ok valid rest (att.attestorPubkey :: seen)
    simp only [checkAttestations, deny, error_ite_eq_ok, not_not, Verified, List.map_cons,
      List.nodup_cons, List.mem_map, List.forall_mem_cons, List.length_cons]
    rcases v.attestor.verify s att.attestorPubkey ref.activateDigest att.signature
      with ⟨e | _ | _, s₁⟩
    · simp
    · simp
    simp only [ih, Prod.mk.injEq, true_and, exists_eq_left', List.mem_cons, not_or,
      List.length_cons]
    constructor
    · rintro ⟨hseen, hset, ⟨hnodup, hrest⟩, hcharter, hver, hvalid⟩
      refine ⟨⟨⟨?_, hnodup⟩, hseen, fun a ha => (hrest a ha).2⟩, ⟨hset, hcharter⟩, hver, ?_⟩
      · rintro ⟨a, ha, heq⟩
        exact (hrest a ha).1 heq
      · push_cast at hvalid ⊢
        omega
    · rintro ⟨⟨⟨hfirst, hnodup⟩, hseen, hrest⟩, ⟨hset, hcharter⟩, hver, hvalid⟩
      refine ⟨hseen, hset, ⟨hnodup, fun a ha => ⟨?_, hrest a ha⟩⟩, hcharter, hver, ?_⟩
      · intro heq
        exact hfirst ⟨a, ha, heq⟩
      · push_cast at hvalid ⊢
        omega

theorem checkQuorum_ok {valid : ℤ} :
    checkQuorum publisher valid = .ok () ↔ publisher.minQuorum ≤ valid := by
  unfold checkQuorum deny
  rw [error_ite_eq_ok, not_lt]
  simp

theorem checkRevocation_ok :
    checkRevocation v s ref failClosed = .ok () ↔ NotRevoked v ref failClosed s := by
  unfold checkRevocation NotRevoked deny
  rcases v.revocation.isReleaseRevoked s ref.genesisOutpoint ref.scope ref.version
    with ⟨e | revoked, s₁⟩
  · simp
  · simp

/-- The quorum is counted over the attestations the loop let through, which are all of them. -/
theorem attested_iff :
    (∃ valid, checkAttestations v ref publisher [] ref.attestations s = .ok (valid, s') ∧
      checkQuorum publisher valid = .ok ()) ↔ Attested v ref publisher s s' := by
  simp only [checkAttestations_ok, checkQuorum_ok]
  constructor
  · rintro ⟨valid, ⟨⟨hnodup, -⟩, hcharter, hver, rfl⟩, hquorum⟩
    exact ⟨hnodup, hcharter, hver, by simpa using hquorum⟩
  · rintro ⟨hnodup, hcharter, hver, hquorum⟩
    exact ⟨_, ⟨⟨hnodup, by simp⟩, hcharter, hver, rfl⟩, by simpa using hquorum⟩

end Stages

section Verify

variable {σ : Type} {sha256 : Bytes → Block 32} {v : ReleaseAnchorVerifier σ} {s : σ}
  {ref : PublishRef} {artifact : LocalArtifact} {publisher : Option TrustedPublisher}

theorem stages_ok {failClosed : Bool} :
    stages sha256 v s ref artifact publisher failClosed = .ok () ↔
      ∃ p, publisher = some p ∧ Admits v ref p failClosed sha256 s artifact := by
  simp only [stages, bind_eq_ok, guard_eq_ok, Prod.exists, Bool.not_eq_true',
    Bool.not_eq_false]
  constructor
  · rintro ⟨p, hp, hscope, hbundle, hfiles, ⟨⟩, hdigest, announce, s₁, hann, s₂, hact, s₃, hfresh,
      valid, s₄, hatt, ⟨⟩, hquorum, hrev⟩
    obtain ⟨rfl, hgenesis⟩ := trustedPublisher_ok.mp hp
    exact ⟨p, rfl, hgenesis, scopeInNamespace_iff.mp hscope, constEq_iff.mp hbundle,
      constEq_iff.mp hfiles, checkDigest_ok.mp hdigest, announce, s₁, s₂, s₃, s₄,
      lookupAnnounce_ok.mp hann, lookupActivate_ok.mp hact, checkFreshness_ok.mp hfresh,
      attested_iff.mp ⟨valid, hatt, hquorum⟩, checkRevocation_ok.mp hrev⟩
  · rintro ⟨p, rfl, hgenesis, hscope, hbundle, hfiles, hdigest, announce, s₁, s₂, s₃, s₄, hann,
      hact, hfresh, hatt, hrev⟩
    obtain ⟨valid, hloop, hquorum⟩ := attested_iff.mpr hatt
    exact ⟨p, trustedPublisher_ok.mpr ⟨rfl, hgenesis⟩, scopeInNamespace_iff.mpr hscope,
      constEq_iff.mpr hbundle, constEq_iff.mpr hfiles, (), checkDigest_ok.mpr hdigest, announce, s₁,
      lookupAnnounce_ok.mpr hann, s₂, lookupActivate_ok.mpr hact, s₃, checkFreshness_ok.mpr hfresh,
      valid, s₄, hloop, (), hquorum, checkRevocation_ok.mpr hrev⟩

theorem verify_eq_ok {opts : Option VerifyOpts} {r : VerifyResult}
    (h : verify sha256 v s ref artifact publisher opts = .ok r) :
    (stages sha256 v s ref artifact publisher (failClosed opts) = .ok () ∧ r = ⟨true, none, none⟩) ∨
      ∃ reason detail, r = ⟨false, some reason, detail⟩ := by
  unfold verify at h
  split at h
  · rename_i hstages
    cases h
    exact .inl ⟨hstages, rfl⟩
  · rename_i reason detail _
    cases h
    exact .inr ⟨reason, detail, rfl⟩
  · simp at h

/-- The gate reports ok exactly for the releases it is meant to admit, and a reason for every other
one it decides on. -/
theorem verify_ok_iff (sha256 : Bytes → Block 32) (v : ReleaseAnchorVerifier σ) (s : σ)
    (ref : PublishRef) (artifact : LocalArtifact) (publisher : Option TrustedPublisher)
    (opts : Option VerifyOpts) :
    ((∃ r, verify sha256 v s ref artifact publisher opts = .ok r ∧ r.ok = true) ↔
      ∃ p, publisher = some p ∧ Admits v ref p (failClosed opts) sha256 s artifact) ∧
    ∀ r, verify sha256 v s ref artifact publisher opts = .ok r →
      (r.ok = false ↔ ∃ reason, r.reason = some reason) := by
  constructor
  · rw [← stages_ok]
    constructor
    · rintro ⟨r, hr, hok⟩
      rcases verify_eq_ok hr with ⟨hstages, -⟩ | ⟨reason, detail, rfl⟩
      · exact hstages
      · simp at hok
    · intro hstages
      exact ⟨⟨true, none, none⟩, by rw [verify, hstages], rfl⟩
  · intro r hr
    rcases verify_eq_ok hr with ⟨-, rfl⟩ | ⟨reason, detail, rfl⟩
    · simp
    · simp

end Verify

end ReleaseAnchorVerifier

end BonsaiChain
