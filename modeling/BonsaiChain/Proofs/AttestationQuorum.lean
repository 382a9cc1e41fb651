import BonsaiChain.AttestationQuorum
import BonsaiChain.Proofs.RabinAttestor

/-!
# Attestations pass the quorum

The off-chain and the on-chain builder of the attestation message agree on every sequence number,
and so what verifies off-chain counts on-chain.
-/

namespace BonsaiChain

open Lib

section Messages

variable {seq : UInt64} {digestHex : CString} {digest : Block 32}

theorem hexDecode_of_lower (h : hexToLower digestHex = hexEncode digest.1) :
    hexDecode digestHex = .ok digest.1 := by
  rw [← hexDecode_hexToLower, h, hexDecode_hexEncode]

/-- Below the sign bit both builders succeed, with the same message. -/
theorem messages_agree (hseq : seq.toNat < 2 ^ 63) (h : hexToLower digestHex = hexEncode digest.1) :
    ∃ msg, buildMsgBytes seq digestHex = .ok msg
      ∧ arpAttestationMsg seq.toNat digest = .ok msg := by
  have hdec := hexDecode_of_lower h
  have hbuilt : buildMsgBytes seq digestHex
      = .ok (attestDomainBytes ++ leBytes 8 seq.toNat ++ digest.1) :=
    buildMsgBytes_eq_ok.2 ⟨hseq, digest, hdec, rfl⟩
  obtain ⟨-, digest', hdec', harp⟩ := buildMsgBytes_eq_arp.1 hbuilt
  obtain rfl : digest = digest' := Subtype.ext (Except.ok.inj (hdec.symm.trans hdec'))
  exact ⟨_, hbuilt, harp⟩

theorem buildMsgBytes_refuses (hseq : 2 ^ 63 ≤ seq.toNat) :
    buildMsgBytes seq digestHex = .error .einval := by
  unfold buildMsgBytes
  rw [if_pos hseq]

theorem arpAttestationMsg_refuses {n : ℤ} (hn : 2 ^ 63 ≤ n) :
    ∃ e, arpAttestationMsg n digest = .error e := by
  rcases h : arpAttestationMsg n digest with e | msg
  · exact ⟨e, rfl⟩
  · obtain ⟨seq8, hseq8, -⟩ := arpAttestationMsg_eq_ok.1 h
    obtain ⟨-, hlt, -⟩ := Covenant.num2bin_eq_some.1 hseq8
    norm_num at hlt
    omega

end Messages

section Quorum

variable {sha256 : Bytes → Block 32} {digestHex : CString} {digest : Block 32}

/-- The slot has the sequence number, the root and the zero bytes of an attestation that verifies
under the key. -/
def QuorumSlot.Carries (sha256 : Bytes → Block 32) (digestHex : CString) (slot : QuorumSlot)
    (attestorPubkey : ℤ) : Prop :=
  ∃ keyText signature att, bnParseDec keyText = .ok attestorPubkey
    ∧ rabinAttestationVerify sha256 keyText digestHex signature = true
    ∧ parseAttestation signature = some att
    ∧ slot.seq = some (att.seq.toNat : ℤ)
    ∧ slot.sig = some ⟨att.s, List.replicate att.paddingByteCount 0⟩

/-- Padding with zero bytes is verified as so many bytes of padding. -/
theorem rabinVerifierVerifySig_of_rabinVerify {msg : Bytes} {s n : ℤ} {pad : ℕ}
    (h : rabinVerify sha256 msg s pad n = true) :
    rabinVerifierVerifySig sha256 msg ⟨s, List.replicate pad 0⟩ n = true := by
  have hpad : ¬rabinMaxPaddingBytes < pad := by
    intro hpad
    simp [rabinVerify, hpad] at h
  simp [rabinVerifierVerifySig, hpad, h]

/-- What verifies off-chain verifies in its slot. -/
theorem QuorumSlot.Carries.verify {slot : QuorumSlot} {attestorPubkey : ℤ}
    (h : slot.Carries sha256 digestHex attestorPubkey)
    (hhex : hexToLower digestHex = hexEncode digest.1) :
    slot.verify sha256 digest attestorPubkey = .ok true := by
  obtain ⟨keyText, signature, att, hkey, hverify, hparse, hseq, hsig⟩ := h
  simp only [rabinAttestationVerify, hkey, hparse] at hverify
  rcases hmsg : buildMsgBytes att.seq digestHex with e | msg
  · simp [hmsg] at hverify
  · rw [hmsg] at hverify
    obtain ⟨hlt, -⟩ := buildMsgBytes_eq_ok.1 hmsg
    obtain ⟨msg', hbuilt, harp⟩ := messages_agree hlt hhex
    obtain rfl := Except.ok.inj (hmsg.symm.trans hbuilt)
    simp only [QuorumSlot.verify, hseq, hsig, harp, ok_bind]
    rw [rabinVerifierVerifySig_of_rabinVerify hverify]
    rfl

theorem countValid_of_carries (hhex : hexToLower digestHex = hexEncode digest.1) :
    ∀ {slots : List (ℤ × QuorumSlot)} (validCount : ℤ),
    (∀ e ∈ slots, e.2.used → e.2.Carries sha256 digestHex e.1) →
    countValid sha256 digest validCount slots
      = .ok (some (validCount + (slots.countP (·.2.used) : ℕ)))
  | [], validCount, _ => by simp [countValid]
  | (attestorPubkey, slot) :: rest, validCount, h => by
    rw [List.forall_mem_cons] at h
    have ih := fun v => countValid_of_carries hhex v h.2
    unfold countValid
    by_cases hused : slot.used
    · rw [if_pos hused, (h.1 hused).verify hhex, ok_bind, if_pos rfl, ih]
      simp [hused]
      ring
    · rw [if_neg hused, ih]
      simp [hused]

/-- The two builders agree below the sign bit and both refuse above it, and attestations that verify
off-chain pass the quorum check of the contract, if there are enough of them. -/
theorem attestationMessages_agree (sha256 : Bytes → Block 32) (digest : Block 32)
    (digestHex : CString) (hhex : hexToLower digestHex = hexEncode digest.1) :
    (∀ seq : UInt64, seq.toNat < 2 ^ 63 → ∃ msg, buildMsgBytes seq digestHex = .ok msg
        ∧ arpAttestationMsg seq.toNat digest = .ok msg)
      ∧ (∀ seq : UInt64, 2 ^ 63 ≤ seq.toNat → buildMsgBytes seq digestHex = .error .einval)
      ∧ (∀ n : ℤ, 2 ^ 63 ≤ n → ∃ e, arpAttestationMsg n digest = .error e)
      ∧ (∀ (slot : QuorumSlot) (attestorPubkey : ℤ), slot.Carries sha256 digestHex attestorPubkey →
        slot.verify sha256 digest attestorPubkey = .ok true)
      ∧ ∀ (c : PublisherTea) (slots : Vector QuorumSlot 3),
        (∀ e ∈ c.params.attestorPubkeys.toList.zip slots.toList,
          e.2.used → e.2.Carries sha256 digestHex e.1) →
        publisherTeaCheckQuorum sha256 digest c slots
          = .ok (c.params.quorum ≤ (slots.toList.countP (·.used) : ℕ)) := by
  refine ⟨fun seq hseq => messages_agree hseq hhex, fun seq hseq => buildMsgBytes_refuses hseq,
    fun n hn => arpAttestationMsg_refuses hn, fun slot n h => h.verify hhex, fun c slots h => ?_⟩
  have hcount : (c.params.attestorPubkeys.toList.zip slots.toList).countP (·.2.used)
      = slots.toList.countP (·.used) := by
    have hsnd : (c.params.attestorPubkeys.toList.zip slots.toList).map Prod.snd = slots.toList :=
      List.map_snd_zip (by simp)
    rw [← hsnd, List.countP_map, hsnd]
    rfl
  unfold publisherTeaCheckQuorum
  rw [countValid_of_carries hhex _ h, hcount, ok_bind, zero_add]
  simp [pure, Except.pure]

end Quorum

section Example

/-- An attestation in upper-case hex, in its slot. -/
theorem attestationMessages_agree_uppercase :
    (⟨some 1, some ⟨915049, []⟩, true⟩ : QuorumSlot).verify sha256
      ⟨List.replicate 32 170, rfl⟩ (1019 * 1039) = .ok true := by
  obtain ⟨-, -, -, hslot, -⟩ := attestationMessages_agree sha256 ⟨List.replicate 32 170, rfl⟩
    (List.replicate 64 65) (by decide +kernel)
  refine hslot _ _ ⟨ascii "1058741", ascii "1:df669:0", ⟨1, 915049, 0⟩, ?_⟩
  decide +kernel

end Example

end BonsaiChain
