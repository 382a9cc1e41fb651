import BonsaiChain.PublisherTea
import BonsaiChain.RabinAttestor

/-!
# The attestors' quorum

`publisher_tea_check_quorum`: every attestation of an activation that is used has to be valid, and
there have to be enough of them.
-/

namespace BonsaiChain

/-- What an activation has of one attestor: `att_seqs[i]`, `att_sigs[i]` and `att_used[i]`. -/
structure QuorumSlot where
  seq : Option ℤ
  sig : Option RabinVerifierSig
  used : Bool
  deriving DecidableEq

section Quorum

variable (sha256 : Bytes → Block 32) (activateDigest : Block 32)

/-- The check of one used attestation under the key of its attestor. -/
def QuorumSlot.verify (slot : QuorumSlot) (attestorPubkey : ℤ) : Except Err Bool :=
  match slot.seq, slot.sig with
  | some seq, some sig => do
    let msg ← arpAttestationMsg seq activateDigest
    return rabinVerifierVerifySig sha256 msg sig attestorPubkey
  | _, _ => .error .einval

/-- The loop over the attestors, which has counted `validCount`; `none` when one is not valid. -/
def countValid : ℤ → List (ℤ × QuorumSlot) → Except Err (Option ℤ)
  | validCount, [] => .ok (some validCount)
  | validCount, (attestorPubkey, slot) :: rest =>
    if slot.used then do
      let ok ← slot.verify sha256 activateDigest attestorPubkey
      if ok then countValid (validCount + 1) rest else .ok none
    else countValid validCount rest

def publisherTeaCheckQuorum (c : PublisherTea) (slots : Vector QuorumSlot 3) : Except Err Bool := do
  let counted ← countValid sha256 activateDigest 0
    (c.params.attestorPubkeys.toList.zip slots.toList)
  return counted.any (c.params.quorum ≤ ·)

end Quorum

end BonsaiChain
