import BonsaiChain.Covenant
import BonsaiChain.PublisherTea

/-!
# The PublisherTea covenant

The byte string each state-keeping method of `publisherTea.scrypt` hashes, as a function of the
contract's code part, constants and state and of the spending context. The signature and guard
`require`s do not enter it.
-/

namespace BonsaiChain.Covenant

/-- A deployed contract: its code part, the state properties of its artifact and the constants and
state the methods read. -/
structure PublisherTea where
  code : Bytes
  stateProps : List ScryptParam
  publisherHash : Bytes
  state : PublisherTeaState

namespace PublisherTea

variable (sha256 : Bytes → Block 32) (this : PublisherTea) (ctx : Ctx)

def zero : Bytes :=
  hexLiteral (ascii "0000000000000000000000000000000000000000000000000000000000000000")

def stateAndReceiptOutputs (receipt : Block 32) : Option Bytes := do
  let stateOutput ← buildStateOutput this.code this.stateProps (publisherTeaStateValues this.state)
    ctx.value
  let receiptOutput ← buildOutput (buildOpreturnScript receipt.1) 0
  withChange ctx (stateOutput ++ receiptOutput)

def announceReceipt (bundleHash fileSetRoot : Block 32) (now : ℤ) : Option Bytes := do
  let releaseCount ← num2bin this.state.releaseCount 8
  let now4 ← num2bin now 4
  return hexLiteral (ascii "415250315f414e4e4f554e43455f5631") ++ this.publisherHash ++ bundleHash.1
    ++ fileSetRoot.1 ++ releaseCount ++ now4

def announceRelease (bundleHash fileSetRoot : Block 32) : Option Bytes := do
  let state : PublisherTeaState :=
    ⟨bundleHash.1, fileSetRoot.1, ctx.locktime, this.state.releaseCount⟩
  let receipt ← announceReceipt this bundleHash fileSetRoot ctx.locktime
  stateAndReceiptOutputs { this with state := state } ctx (sha256 receipt)

def activateReceipt (activateDigest : Block 32) (now : ℤ) : Option Bytes := do
  let releaseCount ← num2bin this.state.releaseCount 8
  let now4 ← num2bin now 4
  return hexLiteral (ascii "415250315f414354524350545f5631") ++ this.publisherHash
    ++ activateDigest.1 ++ releaseCount ++ now4

def activateRelease (activateDigest : Block 32) : Option Bytes := do
  let receipt ← activateReceipt this activateDigest ctx.locktime
  let state : PublisherTeaState := ⟨zero, zero, 0, this.state.releaseCount + 1⟩
  stateAndReceiptOutputs { this with state := state } ctx (sha256 receipt)

def cancelReceipt (now : ℤ) : Option Bytes := do
  let now4 ← num2bin now 4
  return hexLiteral (ascii "415250315f43414e43454c5f5631") ++ this.publisherHash
    ++ this.state.pendingBundleHash ++ now4

def cancelPending : Option Bytes := do
  let receipt ← cancelReceipt this ctx.locktime
  let state : PublisherTeaState := ⟨zero, zero, 0, this.state.releaseCount⟩
  stateAndReceiptOutputs { this with state := state } ctx (sha256 receipt)

def invalidateReceipt (activateDigest : Block 32) (now : ℤ) : Option Bytes := do
  let now4 ← num2bin now 4
  return hexLiteral (ascii "415250315f494e56414c49444154455f5631") ++ this.publisherHash
    ++ activateDigest.1 ++ now4

def invalidateRelease (activateDigest : Block 32) : Option Bytes := do
  let receipt ← invalidateReceipt this activateDigest ctx.locktime
  stateAndReceiptOutputs this ctx (sha256 receipt)

end PublisherTea

end BonsaiChain.Covenant
