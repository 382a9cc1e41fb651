import BonsaiChain.RabinAttestor
import BonsaiChain.ScriptCodec

/-!
# AttestorTea

The stateless bonded-attestor contract, `contracts_next/attestor_tea.c`: its locking script and the
test two signatures of its attestor must pass to slash it.
-/

namespace BonsaiChain

structure AttestorTeaParams where
  operatorPubkey : Bytes
  attestorRabinPubkey : ℤ
  unbondNotBefore : ℤ
  deriving DecidableEq

structure AttestorTea where
  artifact : ScryptArtifact
  params : AttestorTeaParams
  deriving DecidableEq

def attestorTeaLockingScript (c : AttestorTea) : Except Err Bytes :=
  reconstructLockingScript c.artifact
    [.pubkey c.params.operatorPubkey, .int c.params.attestorRabinPubkey,
      .int c.params.unbondNotBefore] [] false

/-- `attestor_tea_check_equivocation`: two different digests signed with the same sequence
number. -/
def attestorTeaCheckEquivocation (sha256 : Bytes → Block 32) (c : AttestorTea) (seq : ℤ)
    (digestA : Block 32) (sigA : RabinVerifierSig) (digestB : Block 32) (sigB : RabinVerifierSig) :
    Except Err Bool := do
  if digestA = digestB then
    return false
  let msgA ← arpAttestationMsg seq digestA
  if !rabinVerifierVerifySig sha256 msgA sigA c.params.attestorRabinPubkey then
    return false
  let msgB ← arpAttestationMsg seq digestB
  return rabinVerifierVerifySig sha256 msgB sigB c.params.attestorRabinPubkey

end BonsaiChain
