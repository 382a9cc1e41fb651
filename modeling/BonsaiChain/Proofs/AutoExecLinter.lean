import BonsaiChain.AutoExecLinter
import BonsaiChain.Proofs.RabinAttestor
import Mathlib.Data.List.Nodup

/-!
# A lint attestor never equivocates

A call either returns an attestation, for a clean manifest and the digest of its release, and moves
the sequence number on by one, or it leaves the number alone. So the numbers of a run count up from
the first one, and two attestations of a run never sign for the same number.
-/

namespace BonsaiChain

open Lib

section Attest

variable {sha256 : Bytes → Block 32} {a : AutoExecLinterAttestor} {call : AttestCall}

/-- What a call that returns an attestation has done. -/
structure AttestedBy (sha256 : Bytes → Block 32) (a : AutoExecLinterAttestor) (call : AttestCall)
    (att : LintAttestation) : Prop where
  clean : (lintManifest call.manifest).clean = true
  digest : call.release.digest sha256 = .ok att.digest
  sign : a.signDigest sha256 call att.digest = some (.ok att.signature)
  seq : att.seq = a.seq

theorem getPubKey_seq (fault : Bool) : (a.getPubKey fault).2.seq = a.seq := by
  unfold AutoExecLinterAttestor.getPubKey
  rcases a.pubKey with _ | pk
  · cases fault <;> rfl
  · rfl

/-- Either an attestation comes back and its number is used up, or the number is still the next. -/
theorem attest_cases (sha256 : Bytes → Block 32) (a : AutoExecLinterAttestor) (call : AttestCall) :
    (attestationOf (a.attest sha256 call).1 = none ∧ (a.attest sha256 call).2.seq = a.seq) ∨
      ∃ att, attestationOf (a.attest sha256 call).1 = some att ∧ AttestedBy sha256 a call att ∧
        (a.attest sha256 call).2.seq = a.seq + 1 := by
  unfold AutoExecLinterAttestor.attest
  simp only []
  by_cases hlint : call.faults.lint = true
  · rw [if_pos hlint]
    exact .inl ⟨rfl, rfl⟩
  by_cases hclean : (lintManifest call.manifest).clean = true
  · rw [if_neg hlint, if_neg (by simpa using hclean)]
    cases hdigest : call.release.digest sha256 with
    | error e => exact .inl ⟨rfl, rfl⟩
    | ok digest =>
      simp only []
      by_cases hfault : call.faults.digest = true
      · rw [if_pos hfault]
        exact .inl ⟨rfl, rfl⟩
      rw [if_neg hfault]
      rcases hsign : a.signDigest sha256 call digest with _ | (e | signature)
      · exact .inl ⟨rfl, rfl⟩
      · exact .inl ⟨rfl, rfl⟩
      simp only []
      have hseq := getPubKey_seq (a := a) call.faults.pubKey
      rcases hpk : a.getPubKey call.faults.pubKey with ⟨_ | pk, a'⟩ <;> rw [hpk] at hseq <;>
        simp only []
      · exact .inl ⟨rfl, hseq⟩
      by_cases hcopy : call.faults.copy = true
      · rw [if_pos hcopy]
        exact .inl ⟨rfl, hseq⟩
      · rw [if_neg hcopy]
        exact .inr ⟨⟨pk, signature, digest, a.seq⟩, rfl, ⟨hclean, hdigest, hsign, rfl⟩, rfl⟩
  · rw [if_neg hlint, if_pos (by simpa using hclean)]
    exact .inl ⟨rfl, rfl⟩

/-- What is signed is the attestation's own message, whose number is below `2 ^ 63`. -/
theorem AttestedBy.message {att : LintAttestation} (h : AttestedBy sha256 a call att) :
    ∃ msg, buildMsgBytes att.seq att.digest = .ok msg := by
  have hsign := h.sign
  unfold AutoExecLinterAttestor.signDigest rabinAttestorSignDigest at hsign
  rw [← h.seq] at hsign
  rcases hmsg : buildMsgBytes att.seq att.digest with e | msg
  · rw [hmsg] at hsign
    split at hsign <;> simp at hsign
  · exact ⟨msg, rfl⟩

end Attest

section Run

variable {sha256 : Bytes → Block 32}

/-- The attestations of a run carry the numbers from the first one on, and the next one is theirs
to use. -/
structure LintAttestorRun.Coherent (sha256 : Bytes → Block 32) (startSeq : ℕ)
    (r : LintAttestorRun) : Prop where
  next : r.attestor.seq.toNat = startSeq + r.produced.length
  seqs : r.produced.map (fun e => e.2.seq.toNat) = List.range' startSeq r.produced.length
  clean : ∀ e ∈ r.produced, (lintManifest e.1.manifest).clean = true
    ∧ e.1.release.digest sha256 = .ok e.2.digest
  message : ∀ e ∈ r.produced, ∃ msg, buildMsgBytes e.2.seq e.2.digest = .ok msg

theorem LintAttestorRun.step_coherent {startSeq : ℕ} (r : LintAttestorRun) (call : AttestCall)
    (h : r.Coherent sha256 startSeq) : (r.step sha256 call).Coherent sha256 startSeq := by
  obtain ⟨hnext, hseqs, hclean, hmessage⟩ := h
  unfold LintAttestorRun.step
  rcases attest_cases sha256 r.attestor call with ⟨hnone, hseq⟩ | ⟨att, hsome, hatt, hseq⟩
  · simp only [hnone, Option.map_none, Option.toList_none, List.append_nil]
    exact ⟨by rw [hseq, hnext], hseqs, hclean, hmessage⟩
  obtain ⟨msg, hmsg⟩ := hatt.message
  have hlt : r.attestor.seq.toNat < 2 ^ 63 := by
    rw [← hatt.seq]
    exact (buildMsgBytes_eq_ok.mp hmsg).1
  have hatt_seq : att.seq.toNat = startSeq + r.produced.length := by rw [hatt.seq, hnext]
  simp only [hsome, Option.map_some, Option.toList_some]
  refine ⟨?_, ?_, ?_, ?_⟩
  · rw [hseq, List.length_append, List.length_singleton, UInt64.toNat_add, hnext]
    -- the number signed for is below `2 ^ 63`, so the next one does not wrap
    rw [hnext] at hlt
    show (startSeq + r.produced.length + 1) % 2 ^ 64 = _
    omega
  · rw [List.map_append, List.length_append, List.length_singleton, List.range'_1_concat, hseqs]
    simp only [List.map_cons, List.map_nil, hatt_seq]
  · intro e he
    rcases List.mem_append.mp he with he | he
    · exact hclean e he
    · obtain rfl := List.mem_singleton.mp he
      exact ⟨hatt.clean, hatt.digest⟩
  · intro e he
    rcases List.mem_append.mp he with he | he
    · exact hmessage e he
    · obtain rfl := List.mem_singleton.mp he
      exact ⟨msg, hmsg⟩

theorem LintAttestorRun.run_coherent {key : RabinKey} {startSeq : UInt64}
    {a : AutoExecLinterAttestor} (h : AutoExecLinterAttestor.new key startSeq = .ok a)
    (calls : List AttestCall) :
    (run (LintAttestorRun.step sha256) ⟨a, []⟩ calls).Coherent sha256 startSeq.toNat := by
  refine run_inv (P := fun _ => True) (fun r call _ => r.step_coherent call) calls _
    (fun _ _ => trivial) ?_
  unfold AutoExecLinterAttestor.new at h
  rw [error_ite_eq_ok] at h
  obtain ⟨-, h⟩ := h
  cases h
  exact ⟨rfl, rfl, by simp, by simp⟩

namespace LintAttestorRun.Coherent

variable {startSeq : ℕ} {r : LintAttestorRun}

theorem pairwise_lt (h : r.Coherent sha256 startSeq) :
    (r.produced.map fun e => e.2.seq).Pairwise (· < ·) := by
  have hlt : (r.produced.map fun e => e.2.seq.toNat).Pairwise (· < ·) := by
    rw [h.seqs]
    exact List.pairwise_lt_range'
  rw [List.pairwise_map] at hlt ⊢
  exact hlt.imp UInt64.lt_iff_toNat_lt.mpr

theorem eq_of_seq (h : r.Coherent sha256 startSeq) {e e' : AttestCall × LintAttestation}
    (he : e ∈ r.produced) (he' : e' ∈ r.produced) (hseq : e.2.seq = e'.2.seq) : e = e' := by
  have hnodup : (r.produced.map fun e => e.2.seq).Nodup := h.pairwise_lt.imp UInt64.ne_of_lt
  exact List.inj_on_of_nodup_map hnodup he he' hseq

/-- The contract refuses a signature of the run under any number but its own. -/
theorem seq_of_verified (h : r.Coherent sha256 startSeq) {n seq : ℤ}
    (hbind : SignaturesBind sha256 n seq (r.produced.map Prod.snd))
    {e : AttestCall × LintAttestation} (he : e ∈ r.produced) {digest : Block 32}
    (hdigest : digest ∈ e.2.digestBytes) {sig : RabinSig} (hsig : e.2.Carries sig)
    {msg : Bytes} (hmsg : arpAttestationMsg seq digest = .ok msg)
    (hver : rabinVerifierVerifySig sha256 msg sig.onChain n = true) : seq = e.2.seq.toNat := by
  obtain ⟨own, hown⟩ := h.message e he
  by_cases hne : own = msg
  · subst hne
    obtain ⟨-, digest', -, harp⟩ := buildMsgBytes_eq_arp.mp hown
    exact (arpAttestationMsg_inj hmsg harp).1
  · have hmem : e.2 ∈ r.produced.map Prod.snd := List.mem_map_of_mem he
    have hfalse := hbind e.2 hmem sig hsig e.2 hmem digest hdigest msg
      (by rw [hmsg]; rfl)
      (by simpa [hown] using hne)
    rw [hfalse] at hver
    simp at hver

end LintAttestorRun.Coherent

/-- Every attestation of a run is for a clean manifest and for the digest of its release; the
numbers count up from the first one, each used by one attestation, and are strictly increasing; and
no two attestations of the run slash the attestor, when signatures bind what they sign. -/
theorem LintAttestorRun.never_equivocates (sha256 : Bytes → Block 32) {key : RabinKey}
    {startSeq : UInt64} {a : AutoExecLinterAttestor}
    (h : AutoExecLinterAttestor.new key startSeq = .ok a) (calls : List AttestCall)
    {r : LintAttestorRun} (hr : r = run (LintAttestorRun.step sha256) ⟨a, []⟩ calls) :
    (∀ e ∈ r.produced, (lintManifest e.1.manifest).clean = true
      ∧ e.1.release.digest sha256 = .ok e.2.digest) ∧
    (r.produced.map fun e => e.2.seq).Pairwise (· < ·) ∧
    (r.produced.map (fun e => e.2.seq.toNat) = List.range' startSeq.toNat r.produced.length
      ∧ r.attestor.seq.toNat = startSeq.toNat + r.produced.length) ∧
    ∀ (c : AttestorTea) (seq : ℤ), SignaturesBind sha256 c.params.attestorRabinPubkey seq
        (r.produced.map Prod.snd) →
      ∀ e ∈ r.produced, ∀ e' ∈ r.produced,
        ∀ digest ∈ e.2.digestBytes, ∀ sig, e.2.Carries sig →
        ∀ digest' ∈ e'.2.digestBytes, ∀ sig', e'.2.Carries sig' →
          attestorTeaCheckEquivocation sha256 c seq digest sig.onChain digest' sig'.onChain
            ≠ .ok true := by
  have hco : r.Coherent sha256 startSeq.toNat := hr ▸ run_coherent h calls
  refine ⟨hco.clean, hco.pairwise_lt, ⟨hco.seqs, hco.next⟩, ?_⟩
  intro c seq hbind e he e' he' digest hdigest sig hsig digest' hdigest' sig' hsig' hcheck
  obtain ⟨hne, ⟨msg, hmsg, hver⟩, msg', hmsg', hver'⟩ :=
    attestorTeaCheckEquivocation_eq_true.mp hcheck
  have hseq := hco.seq_of_verified hbind he hdigest hsig hmsg hver
  have hseq' := hco.seq_of_verified hbind he' hdigest' hsig' hmsg' hver'
  have heq : e.2.seq = e'.2.seq := by
    apply UInt64.toNat_inj.mp
    omega
  obtain rfl := hco.eq_of_seq he he' heq
  exact hne (Option.mem_unique hdigest hdigest')

end Run

section Example

/-- What the signatures of a list of attestations must bind, as it is tested on a list of them. -/
def bindCheck (sha256 : Bytes → Block 32) (n seq : ℤ) (atts : List (LintAttestation × RabinSig)) :
    Bool :=
  atts.all fun (att, sig) => att.signature = attestationWire att.seq sig &&
    atts.all fun (att', _) => att'.digestBytes.all fun digest =>
      (arpAttestationMsg seq digest).toOption.all fun msg =>
        buildMsgBytes att.seq att.digest = .ok msg ||
          !rabinVerifierVerifySig sha256 msg sig.onChain n

theorem signaturesBind_of_bindCheck {sha256 : Bytes → Block 32} {n seq : ℤ}
    {atts : List (LintAttestation × RabinSig)} (h : bindCheck sha256 n seq atts = true) :
    SignaturesBind sha256 n seq (atts.map Prod.fst) := by
  simp only [bindCheck, List.all_eq_true, Bool.and_eq_true, decide_eq_true_eq, Bool.or_eq_true,
    Bool.not_eq_true', Option.all_eq_true, Prod.forall] at h
  intro att hatt sig hcarries att' hatt' digest hdigest msg hmsg hne
  obtain ⟨⟨_, sig'⟩, hmem, rfl⟩ := List.mem_map.mp hatt
  obtain ⟨⟨_, sig''⟩, hmem', rfl⟩ := List.mem_map.mp hatt'
  obtain ⟨hwire, hall⟩ := h _ _ hmem
  obtain rfl : sig = sig' := attestationWire_inj (hcarries.symm.trans hwire)
  exact (hall _ _ hmem' digest hdigest msg hmsg).resolve_left hne

def exampleFields (version : CString) : ReleaseFields :=
  ⟨some [48], some [49], some version, some [50], some [51], some [52]⟩

def noFaults : AttestFaults := ⟨false, false, none, false, false⟩

/-- A release that is attested, one for which signing fails, one for which the copy of the key does,
one that is not clean, and another that is attested. -/
def exampleCalls : List AttestCall :=
  [⟨exampleFields [50], [⟨[97], none⟩], noFaults, 1⟩,
    ⟨exampleFields [51], [⟨[97], none⟩], { noFaults with sign := some .ecrypto }, 1⟩,
    ⟨exampleFields [52], [⟨[97], none⟩], { noFaults with copy := true }, 1⟩,
    ⟨exampleFields [53], [⟨ascii ".vscode/tasks.json", none⟩], noFaults, 1⟩,
    ⟨exampleFields [48], [⟨[97], none⟩], noFaults, 1⟩]

def exampleRun : LintAttestorRun :=
  run (LintAttestorRun.step sha256) ⟨⟨exampleRabinKey, 1, none⟩, []⟩ exampleCalls

/-- The bond of the attestor of the example. -/
def exampleBond : AttestorTea := ⟨⟨[], [], [], []⟩, ⟨List.replicate 33 2, 1019 * 1039, 1⟩⟩

theorem exampleRun_produced : exampleRun.produced.map (fun e => e.2.seq) = [1, 2] ∧
    bindCheck sha256 (1019 * 1039) 1
      ((exampleRun.produced.map Prod.snd).zip [⟨167392, 0⟩, ⟨815519, 0⟩]) = true := by
  decide +kernel

theorem LintAttestorRun.never_equivocates_two :
    exampleRun.produced.map (fun e => e.2.seq) = [1, 2] ∧
    ∀ e ∈ exampleRun.produced, ∀ e' ∈ exampleRun.produced,
      ∀ digest ∈ e.2.digestBytes, ∀ sig, e.2.Carries sig →
      ∀ digest' ∈ e'.2.digestBytes, ∀ sig', e'.2.Carries sig' →
        attestorTeaCheckEquivocation sha256 exampleBond 1 digest sig.onChain digest' sig'.onChain
          ≠ .ok true := by
  obtain ⟨hseqs, hcheck⟩ := exampleRun_produced
  have hnew : AutoExecLinterAttestor.new exampleRabinKey 1 = .ok ⟨exampleRabinKey, 1, none⟩ := rfl
  have hlen : (exampleRun.produced.map Prod.snd).length = 2 := by
    simpa using congrArg List.length hseqs
  have hbind := signaturesBind_of_bindCheck hcheck
  rw [List.map_fst_zip (by simp [hlen])] at hbind
  exact ⟨hseqs, (LintAttestorRun.never_equivocates sha256 hnew exampleCalls rfl).2.2.2
    exampleBond 1 hbind⟩

end Example

end BonsaiChain
