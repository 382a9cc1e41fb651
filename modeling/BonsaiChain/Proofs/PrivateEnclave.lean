import BonsaiChain.Lib.Results
import BonsaiChain.PrivateEnclave
import BonsaiChain.Proofs.Common

/-!
# What the enclave seals

A seal that succeeds has encrypted the payload under the vault's key for the identity, and with an
ideal cipher the record opens under that key only.
-/

namespace BonsaiChain

open Lib

section Seal

variable {ν : Type} {crypto : EnclaveCrypto}

/-- What a record holds of a payload sealed under the vault's key for the identity. -/
structure Seals (crypto : EnclaveCrypto) (ensureKey : EnsureKey ν) (v v' : ν)
    (identityId : CString) (payload : Bytes) (action : SealedAction) : Prop where
  commitment : ∃ key v₁, ensureKey v identityId = (.ok key, v₁)
    ∧ actionCommitment crypto key payload = .ok action.actionHash
  record : ∃ v₁ key iv ciphertext tag, ensureKey v₁ identityId = (.ok key, v')
    ∧ crypto.aes256gcmSeal key iv payload identityId = .ok (ciphertext, tag)
    ∧ action.record.identityId = identityId ∧ action.record.ciphertext = hexEncode ciphertext
    ∧ action.record.iv = hexEncode iv.val ∧ action.record.authTag = hexEncode tag.val

theorem sealUnder_eq_ok {key : Block 32} {identityId : CString} {plaintext : Bytes}
    {reads : SealReads} {record : SealedRecord}
    (h : sealUnder crypto key identityId plaintext reads = .ok record) :
    ∃ iv ciphertext tag, crypto.aes256gcmSeal key iv plaintext identityId = .ok (ciphertext, tag)
      ∧ record = ⟨identityId, hexEncode ciphertext, hexEncode iv.val, hexEncode tag.val, reads.now,
        none⟩ := by
  unfold sealUnder at h
  rcases hiv : reads.iv with _ | iv
  · simp [hiv] at h
  simp only [hiv, bind_eq_ok, pure_eq_ok] at h
  obtain ⟨⟨ciphertext, tag⟩, haes, rfl⟩ := h
  exact ⟨iv, ciphertext, tag, haes, rfl⟩

theorem attachProvenance_eq_ok {record : SealedRecord} {provenance : Option ProvenanceRecord}
    {actionHash : CString} {action : SealedAction}
    (h : attachProvenance crypto record provenance actionHash = .ok action) :
    action.actionHash = actionHash
      ∧ ∃ provenance', action.record = { record with provenance := provenance' } := by
  unfold attachProvenance at h
  rcases provenance with _ | p
  · obtain rfl := Except.ok.inj h
    exact ⟨rfl, record.provenance, rfl⟩
  · simp only [bind_eq_ok, pure_eq_ok] at h
    obtain ⟨_, -, rfl⟩ := h
    exact ⟨rfl, some p, rfl⟩

theorem seal_eq_ok {ensureKey : EnsureKey ν} {v v' : ν} {identityId : CString}
    {plaintext : Option Bytes} {reads : SealReads} {record : SealedRecord}
    (h : privateEnclaveSeal crypto ensureKey v identityId plaintext reads = (.ok record, v')) :
    ∃ bytes key, plaintext = some bytes ∧ ensureKey v identityId = (.ok key, v')
      ∧ sealUnder crypto key identityId bytes reads = .ok record := by
  unfold privateEnclaveSeal at h
  rcases plaintext with _ | bytes
  · exact nomatch h
  rcases hkey : ensureKey v identityId with ⟨e | key, v₁⟩
  · simp [hkey] at h
  simp only [hkey, Prod.mk.injEq] at h
  obtain ⟨hseal, rfl⟩ := h
  exact ⟨bytes, key, rfl, rfl, hseal⟩

/-- The parts of an action that was sealed: the commitment, the record and the provenance. -/
theorem sealAction_parts {ensureKey : EnsureKey ν} {v v' : ν} {identityId : CString}
    {payload : Option Bytes} {provenance : Option ProvenanceRecord} {sealReads : SealReads}
    {action : SealedAction} (h : privateEnclaveSealAction crypto ensureKey v identityId payload
      provenance sealReads = (.ok action, v')) :
    ∃ bytes key v₁ record, payload = some bytes ∧ ensureKey v identityId = (.ok key, v₁)
      ∧ actionCommitment crypto key bytes = .ok action.actionHash
      ∧ privateEnclaveSeal crypto ensureKey v₁ identityId payload sealReads = (.ok record, v')
      ∧ ∃ provenance', action.record = { record with provenance := provenance' } := by
  unfold privateEnclaveSealAction at h
  rcases payload with _ | bytes
  · exact nomatch h
  simp only [] at h
  rcases hkey : ensureKey v identityId with ⟨e | key, v₁⟩
  · simp [hkey] at h
  rcases hcommit : actionCommitment crypto key bytes with e | actionHash
  · simp [hkey, hcommit] at h
  rcases hseal : privateEnclaveSeal crypto ensureKey v₁ identityId (some bytes) sealReads with
    ⟨e | record, v₂⟩
  · simp [hkey, hcommit, hseal] at h
  simp only [hkey, hcommit, hseal, Prod.mk.injEq] at h
  obtain ⟨hattach, rfl⟩ := h
  obtain ⟨rfl, hrecord⟩ := attachProvenance_eq_ok hattach
  exact ⟨bytes, key, v₁, record, rfl, rfl, hcommit, hseal, hrecord⟩

theorem sealAction_eq_ok {ensureKey : EnsureKey ν} {v v' : ν} {identityId : CString}
    {payload : Option Bytes} {provenance : Option ProvenanceRecord} {sealReads : SealReads}
    {action : SealedAction} (h : privateEnclaveSealAction crypto ensureKey v identityId payload
      provenance sealReads = (.ok action, v')) :
    ∃ bytes, payload = some bytes ∧ Seals crypto ensureKey v v' identityId bytes action := by
  obtain ⟨bytes, key, v₁, record, rfl, hkey, hcommit, hseal, _, hrecord⟩ := sealAction_parts h
  obtain ⟨_, key', hbytes, hkey', hunder⟩ := seal_eq_ok hseal
  obtain rfl := Option.some.inj hbytes
  obtain ⟨iv, ciphertext, tag, haes, rfl⟩ := sealUnder_eq_ok hunder
  refine ⟨bytes, rfl, ⟨key, v₁, hkey, hcommit⟩, v₁, key', iv, ciphertext, tag, hkey', haes, ?_⟩
  rw [hrecord]
  exact ⟨rfl, rfl, rfl, rfl⟩

end Seal

end BonsaiChain
