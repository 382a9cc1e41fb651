import BonsaiChain.ScriptCodec

/-!
# PublisherTea

The publisher identity contract of `contracts_next/publisher_tea.c`: the locking script and the four
receipt preimages. The activate, cancel and invalidate receipts take the spend time from the
announce time of the state.
-/

namespace BonsaiChain

structure PublisherTeaParams where
  publisherKey : Bytes
  approverKey : Bytes
  cancelKey : Bytes
  publisherHash : Bytes
  delaySeconds : ℤ
  attestorPubkeys : Vector ℤ 3
  quorum : ℤ
  deriving DecidableEq

structure PublisherTeaState where
  pendingBundleHash : Bytes
  pendingFileSetRoot : Bytes
  pendingAnnounceTime : ℤ
  releaseCount : ℤ
  deriving DecidableEq, Repr

structure PublisherTea where
  artifact : ScryptArtifact
  params : PublisherTeaParams
  state : PublisherTeaState
  deriving DecidableEq

def zero32 : Bytes := List.replicate 32 0

def announceTag : Bytes := ascii "ARP1_ANNOUNCE_V1"

def actrcptTag : Bytes := ascii "ARP1_ACTRCPT_V1"

def cancelTag : Bytes := ascii "ARP1_CANCEL_V1"

def invalidateTag : Bytes := ascii "ARP1_INVALIDATE_V1"

section LockingScript

def publisherTeaCtor (p : PublisherTeaParams) : List ScryptArg :=
  [.pubkey p.publisherKey, .pubkey p.approverKey, .pubkey p.cancelKey, .sha256 p.publisherHash,
    .int p.delaySeconds, .fixedArray (p.attestorPubkeys.toList.map .int), .int p.quorum]

def publisherTeaStateValues (s : PublisherTeaState) : List ScryptArg :=
  [.sha256 s.pendingBundleHash, .sha256 s.pendingFileSetRoot, .int s.pendingAnnounceTime,
    .int s.releaseCount]

def publisherTeaLockingScript (c : PublisherTea) (isGenesis : Bool) : Except Err Bytes :=
  reconstructLockingScript c.artifact (publisherTeaCtor c.params) (publisherTeaStateValues c.state)
    isGenesis

end LockingScript

section Receipts

/-- An empty buffer has no data, which the receipt builders reject. -/
def hasData (bs : Bytes) : Except Err Unit := if bs = [] then .error .einval else .ok ()

def publisherTeaAnnounceReceipt (c : PublisherTea) (bundleHash fileSetRoot : Block 32) (now : ℤ) :
    Except Err Bytes := do
  hasData c.params.publisherHash
  let releaseCount8 ← int2bytestringSized c.state.releaseCount 8
  let now4 ← int2bytestringSized now 4
  return announceTag ++ c.params.publisherHash ++ bundleHash.1 ++ fileSetRoot.1 ++ releaseCount8
    ++ now4

def publisherTeaActivateReceipt (c : PublisherTea) (activateDigest : Block 32) :
    Except Err Bytes := do
  hasData c.params.publisherHash
  let releaseCount8 ← int2bytestringSized c.state.releaseCount 8
  let now4 ← int2bytestringSized c.state.pendingAnnounceTime 4
  return actrcptTag ++ c.params.publisherHash ++ activateDigest.1 ++ releaseCount8 ++ now4

def publisherTeaCancelReceipt (c : PublisherTea) : Except Err Bytes := do
  hasData c.params.publisherHash
  hasData c.state.pendingBundleHash
  let now4 ← int2bytestringSized c.state.pendingAnnounceTime 4
  return cancelTag ++ c.params.publisherHash ++ c.state.pendingBundleHash ++ now4

def publisherTeaInvalidateReceipt (c : PublisherTea) (activateDigest : Block 32) :
    Except Err Bytes := do
  hasData c.params.publisherHash
  let now4 ← int2bytestringSized c.state.pendingAnnounceTime 4
  return invalidateTag ++ c.params.publisherHash ++ activateDigest.1 ++ now4

end Receipts

end BonsaiChain
