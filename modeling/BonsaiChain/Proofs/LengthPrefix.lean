import BonsaiChain.Lib.Delimited
import BonsaiChain.Lib.LittleEndian
import BonsaiChain.Lib.Results
import BonsaiChain.PrivateEnclave
import BonsaiChain.Proofs.Common
import BonsaiChain.ReleaseAnchorVerifier

/-!
# Commitments to fields with their lengths

The digest of a release and the provenance hash are taken over fields that stand after their
lengths, in four bytes and in one byte. A length that fits its bytes delimits its field, so that the
text hashed is of one list of fields.
-/

namespace BonsaiChain

open Lib

section Release

variable {f f' : ActivateFields} {fields : List CString} {pre out : Bytes}

/-- The code of a field in the preimage of a release. -/
def prefixed (field : CString) : Bytes := lengthPrefix field ++ field

theorem delimits_prefixed : Delimits prefixed {field | field.length < 2 ^ 32} := by
  have hsize : Delimits (fun n => (leBytes 4 n).reverse) {n | n < 2 ^ 32} := by
    refine .of_length (n := 4) (fun n _ => by simp) fun m hm n hn heq => ?_
    exact leBytes_inj hm hn (List.reverse_inj.1 heq)
  exact hsize.sized

theorem appendField_eq_ok {field : CString} (h : appendField pre field = .ok out) :
    out = pre ++ prefixed field := by
  simp only [appendField, bind_eq_ok] at h
  obtain ⟨mid, hmid, hout⟩ := h
  rw [byteBufAppend_eq_ok hout, byteBufAppend_eq_ok hmid, prefixed, List.append_assoc]

theorem foldlM_appendField : ∀ {fields : List CString} {pre : Bytes},
    fields.foldlM appendField pre = .ok out → out = pre ++ fields.flatMap prefixed
  | [], pre, h => by
    rw [List.foldlM_nil, pure_eq_ok] at h
    simp [h]
  | field :: fields, pre, h => by
    rw [List.foldlM_cons, bind_eq_ok] at h
    obtain ⟨mid, hmid, hrest⟩ := h
    rw [foldlM_appendField hrest, appendField_eq_ok hmid, List.flatMap_cons, List.append_assoc]

theorem preimage_eq_ok (h : f.preimage = .ok pre) :
    pre = activateDomain ++ f.toList.flatMap prefixed := by
  simp only [ActivateFields.preimage, bind_eq_ok] at h
  obtain ⟨mid, hmid, hrest⟩ := h
  rw [foldlM_appendField hrest, byteBufAppend_eq_ok hmid, List.nil_append]

theorem toList_injective : Function.Injective ActivateFields.toList := by
  rintro ⟨⟩ ⟨⟩ heq
  simpa [ActivateFields.toList] using heq

theorem preimage_inj (hfits : f.Fits) (hfits' : f'.Fits) (h : f.preimage = .ok pre)
    (h' : f'.preimage = .ok pre) : f = f' := by
  have heq := (preimage_eq_ok h).symm.trans (preimage_eq_ok h')
  have hlists := delimits_prefixed.flatMap 6
  exact toList_injective (hlists.injOn ⟨rfl, hfits⟩ ⟨rfl, hfits'⟩ (List.append_cancel_left heq))

theorem digest_eq (sha256 : Bytes → Block 32) (f : ActivateFields) :
    f.digest sha256 = f.preimage.map fun pre => hexEncode (sha256 pre).1 := by
  show (do
    let pre ← byteBufAppend [] activateDomain
    let pre ← f.toList.foldlM appendField pre
    return hexEncode (sha256 pre).1) = _
  unfold ActivateFields.preimage
  rcases byteBufAppend [] activateDomain with _ | _ <;> rfl

theorem foldlM_appendField_of_lt : ∀ {fields : List CString} {pre : Bytes},
    (pre ++ fields.flatMap prefixed).length < 2 ^ 64 →
      fields.foldlM appendField pre = .ok (pre ++ fields.flatMap prefixed)
  | [], pre, _ => by simp [pure, Except.pure]
  | field :: fields, pre, h => by
    rw [List.flatMap_cons, ← List.append_assoc] at h ⊢
    have hlen := h
    simp only [List.length_append, prefixed] at hlen
    have happend : appendField pre field = .ok (pre ++ prefixed field) := by
      unfold appendField
      rw [byteBufAppend_of_lt (by omega), ok_bind,
        byteBufAppend_of_lt (by simp only [List.length_append]; omega), prefixed, List.append_assoc]
    rw [List.foldlM_cons, happend, ok_bind, foldlM_appendField_of_lt h]

/-- Six fields whose lengths fit never fill a buffer. -/
theorem preimage_of_fits (hfits : f.Fits) :
    f.preimage = .ok (activateDomain ++ f.toList.flatMap prefixed) := by
  have hdomain : activateDomain.length = 16 := by decide
  have hbound : (activateDomain ++ f.toList.flatMap prefixed).length < 2 ^ 64 := by
    simp only [ActivateFields.Fits, ActivateFields.toList, List.forall_mem_cons] at hfits
    simp only [ActivateFields.toList, List.flatMap_cons, List.flatMap_nil, List.length_append,
      List.length_nil, prefixed, lengthPrefix, List.length_reverse, leBytes_length, hdomain]
    omega
  unfold ActivateFields.preimage
  rw [byteBufAppend_of_lt (by simp [hdomain]), ok_bind, List.nil_append,
    foldlM_appendField_of_lt hbound]

end Release

section Provenance

variable {p p' : ProvenanceRecord} {field : Option CString} {pre out : Bytes}

/-- The code of a field in the preimage of a provenance record. -/
def shortPrefixed (field : CString) : Bytes := UInt8.ofNat field.length :: field

theorem delimits_shortPrefixed : Delimits shortPrefixed {field | field.length ≤ 255} := by
  have hsize : Delimits (fun n => [UInt8.ofNat n]) {n | n ≤ 255} := by
    refine .of_length (n := 1) (fun n _ => rfl) fun m hm n hn heq => ?_
    have hbyte := congrArg UInt8.toNat (List.cons.inj heq).1
    rwa [toNat_ofNat_of_lt (Nat.lt_succ_of_le hm), toNat_ofNat_of_lt (Nat.lt_succ_of_le hn)]
      at hbyte
  exact hsize.sized

theorem provenanceLp_eq_ok (h : provenanceLp field pre = .ok out) :
    (field.getD []).length ≤ 255 ∧ out = pre ++ shortPrefixed (field.getD []) := by
  simp only [provenanceLp, guard_eq_ok, bind_eq_ok] at h
  obtain ⟨hlen, mid, hmid, hout⟩ := h
  rw [byteBufAppend_eq_ok hout, byteBufAppend_eq_ok hmid, shortPrefixed, List.append_assoc]
  exact ⟨not_lt.1 hlen, rfl⟩

theorem provenancePreimage_eq_ok (h : provenancePreimage p = .ok pre) :
    (∀ field ∈ p.texts, field.length ≤ 255) ∧ pre = p.texts.flatMap shortPrefixed := by
  simp only [provenancePreimage, bind_eq_ok] at h
  obtain ⟨_, hdataset, _, hmodel, _, hversion, hlicence⟩ := h
  obtain ⟨hlen₀, rfl⟩ := provenanceLp_eq_ok hdataset
  obtain ⟨hlen₁, rfl⟩ := provenanceLp_eq_ok hmodel
  obtain ⟨hlen₂, rfl⟩ := provenanceLp_eq_ok hversion
  obtain ⟨hlen₃, rfl⟩ := provenanceLp_eq_ok hlicence
  simp [ProvenanceRecord.texts, hlen₀, hlen₁, hlen₂, hlen₃]

theorem provenancePreimage_inj (h : provenancePreimage p = .ok pre)
    (h' : provenancePreimage p' = .ok pre) : p.texts = p'.texts := by
  obtain ⟨hlen, rfl⟩ := provenancePreimage_eq_ok h
  obtain ⟨hlen', heq⟩ := provenancePreimage_eq_ok h'
  exact (delimits_shortPrefixed.flatMap 4).injOn ⟨rfl, hlen⟩ ⟨rfl, hlen'⟩ heq

end Provenance

section Commitments

/-- A text that is hashed is of one release, or of one provenance up to absent fields; where the
hash tells the texts of some releases apart, their digests are distinct, and so for provenance
hashes. -/
theorem lengthPrefixed_binding (sha256 : Bytes → Block 32) :
    (∀ f f' : ActivateFields, f.Fits → f'.Fits → ∀ pre, f.preimage = .ok pre →
      f'.preimage = .ok pre → f = f')
    ∧ (∀ f : ActivateFields, f.Fits →
      ∃ pre, f.preimage = .ok pre ∧ f.digest sha256 = .ok (hexEncode (sha256 pre).1))
    ∧ (∀ p p' : ProvenanceRecord, ∀ pre, provenancePreimage p = .ok pre →
      provenancePreimage p' = .ok pre → p.texts = p'.texts)
    ∧ (∀ S : Set ActivateFields, (∀ f ∈ S, f.Fits) →
      Set.InjOn sha256 {pre | ∃ f ∈ S, f.preimage = .ok pre} →
      Set.InjOn (ActivateFields.digest · sha256) S)
    ∧ ∀ S : Set ProvenanceRecord, Set.InjOn sha256 {pre | ∃ p ∈ S, provenancePreimage p = .ok pre} →
      ∀ p ∈ S, ∀ p' ∈ S, ∀ hash, computeProvenanceHash (fun bs => (sha256 bs).1) p = .ok hash →
      computeProvenanceHash (fun bs => (sha256 bs).1) p' = .ok hash → p.texts = p'.texts := by
  refine ⟨fun f f' hfits hfits' pre => preimage_inj hfits hfits', fun f hfits => ?_,
    fun p p' pre => provenancePreimage_inj, fun S hfits hinj f hf f' hf' heq => ?_,
    fun S hinj p hp p' hp' hash h h' => ?_⟩
  · refine ⟨_, preimage_of_fits hfits, ?_⟩
    rw [digest_eq, preimage_of_fits hfits]
    rfl
  · have hpre := preimage_of_fits (hfits f hf)
    have hpre' := preimage_of_fits (hfits f' hf')
    dsimp only at heq
    rw [digest_eq, digest_eq, hpre, hpre'] at heq
    have hhash := hexEncode_inj (Except.ok.inj heq)
    rw [hinj ⟨f, hf, hpre⟩ ⟨f', hf', hpre'⟩ (Subtype.ext hhash)] at hpre
    exact preimage_inj (hfits f hf) (hfits f' hf') hpre hpre'
  · unfold computeProvenanceHash at h h'
    rcases hpre : provenancePreimage p with e | pre <;> rw [hpre] at h
    · cases h
    rcases hpre' : provenancePreimage p' with e | pre' <;> rw [hpre'] at h'
    · cases h'
    have hhash := hexEncode_inj ((Except.ok.inj h).trans (Except.ok.inj h').symm)
    obtain rfl := hinj ⟨p, hp, hpre⟩ ⟨p', hp', hpre'⟩ (Subtype.ext hhash)
    exact provenancePreimage_inj hpre hpre'

/-- A release, the one before it, and two provenance records between which a byte moves. -/
def anchoredRelease : ActivateFields :=
  ⟨ascii "f3a1:0", ascii "bsv-anchor-core", ascii "1.2.0", ascii "bbbb", ascii "ffff",
    ascii "announce1"⟩

def releaseBefore : ActivateFields := { anchoredRelease with version := ascii "1.1.9" }

def declared : ProvenanceRecord :=
  ⟨some (ascii "ds-1"), some (ascii "bonsai-8b"), some (ascii "1.0.0"), some (ascii "CC-BY-4.0")⟩

def declaredShifted : ProvenanceRecord :=
  { declared with version := some (ascii "1.0.0C"), licenceTag := some (ascii "C-BY-4.0") }

/-- SHA-256, of the texts of these four. -/
def anchoredSha256 (bs : Bytes) : Block 32 :=
  if .ok bs = anchoredRelease.preimage then
    hashOf 0x42388c9f671b5b03e5ef2c5200951899062dd587c87d10d6b4d3d7109c0350a3
  else if .ok bs = releaseBefore.preimage then
    hashOf 0xc32f43a22c62004dbe8aab3acee326d1293a371ab1025b6c282e67a4c7294b65
  else if .ok bs = provenancePreimage declared then
    hashOf 0xa713aa466836e36a0bf118d167f947ebff6139553f32a5f9859278b5d1ca51ca
  else hashOf 0xbe18f28036762f927ce57fc9e10174af69e872e9d2f71df89944a81e3b313770

/-- A hash that differs on what two runs give tells them apart. -/
theorem injOn_of_ne {α β : Type} {run : α → Except Err Bytes} {hash : Bytes → β} {a b : α}
    (h : (run a).map hash ≠ (run b).map hash) :
    Set.InjOn hash {bs | ∃ x ∈ ({a, b} : Set α), run x = .ok bs} := by
  rintro bs ⟨x, hx, hrun⟩ bs' ⟨x', hx', hrun'⟩ heq
  have hmap : (run x).map hash = (run x').map hash := by
    rw [hrun, hrun', Except.map, Except.map, heq]
  rcases hx with rfl | rfl <;> rcases hx' with rfl | rfl
  · exact Except.ok.inj (hrun.symm.trans hrun')
  · exact absurd hmap h
  · exact absurd hmap.symm h
  · exact Except.ok.inj (hrun.symm.trans hrun')

theorem lengthPrefixed_binding_anchored :
    anchoredRelease.digest anchoredSha256 ≠ releaseBefore.digest anchoredSha256
    ∧ computeProvenanceHash (fun bs => (anchoredSha256 bs).1) declared
      ≠ computeProvenanceHash (fun bs => (anchoredSha256 bs).1) declaredShifted := by
  obtain ⟨-, -, -, hrelease, hprovenance⟩ := lengthPrefixed_binding anchoredSha256
  have hfacts : (∀ field ∈ anchoredRelease.toList, field.length < 2 ^ 32)
      ∧ (∀ field ∈ releaseBefore.toList, field.length < 2 ^ 32)
      ∧ anchoredRelease ≠ releaseBefore ∧ declared.texts ≠ declaredShifted.texts
      ∧ anchoredRelease.preimage.map anchoredSha256 ≠ releaseBefore.preimage.map anchoredSha256
      ∧ (provenancePreimage declared).map anchoredSha256
        ≠ (provenancePreimage declaredShifted).map anchoredSha256
      ∧ ∃ hash, computeProvenanceHash (fun bs => (anchoredSha256 bs).1) declared = .ok hash
        ∧ True := by
    decide +kernel
  obtain ⟨hfits, hfits', hne, htexts, hrel, hprov, hash, hrun, -⟩ := hfacts
  refine ⟨fun heq => hne ?_, fun heq => htexts ?_⟩
  · refine hrelease {anchoredRelease, releaseBefore} ?_ (injOn_of_ne hrel) (by simp) (by simp) heq
    rintro f (rfl | rfl)
    · exact hfits
    · exact hfits'
  · exact hprovenance {declared, declaredShifted} (injOn_of_ne hprov) _ (by simp) _ (by simp) hash
      hrun (heq ▸ hrun)

end Commitments

end BonsaiChain
