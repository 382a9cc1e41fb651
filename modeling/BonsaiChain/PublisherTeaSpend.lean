import BonsaiChain.CovenantSpend
import BonsaiChain.PublisherTeaCovenant

/-!
# Calls of the PublisherTea contract

The public methods of `publisherTea.scrypt` as calls with all their arguments. A release is
announced by publisher and approver, waits for the delay, and is activated by the publisher with a
quorum of attestors or cancelled; `retire` ends the contract.
-/

namespace BonsaiChain.Covenant

/-- `ArpAttest.attestationMsg`. -/
def attestationMsg (seq : ℤ) (activateDigest : Block 32) : Option Bytes := do
  let seq8 ← num2bin seq 8
  return hexLiteral (ascii "415250315f4154544553545f5631") ++ seq8 ++ activateDigest.1

namespace PublisherTea

inductive Call where
  | announceRelease (publisherSig approverSig : Bytes) (bundleHash fileSetRoot : Block 32)
  | activateRelease (publisherSig : Bytes) (activateDigest : Block 32)
      (attSigs : Vector RabinVerifierSig 3) (attSeqs : Vector ℤ 3) (attUsed : Vector Bool 3)
  | cancelPending (cancelSig : Bytes)
  | invalidateRelease (cancelSig : Bytes) (activateDigest : Block 32)
  | retire (publisherSig approverSig : Bytes)

section Guards

variable (V : Verifiers) (p : PublisherTeaParams)

/-- The attestations an activation uses are valid, and there are enough of them. -/
def Attested (activateDigest : Block 32) (sigs : Vector RabinVerifierSig 3) (seqs : Vector ℤ 3)
    (used : Vector Bool 3) : Prop :=
  (∀ i : Fin 3, used[i] = true → ∃ msg ∈ attestationMsg seqs[i] activateDigest,
      V.verifySig msg sigs[i] p.attestorPubkeys[i])
    ∧ ((used.toList.count true : ℕ) : ℤ) ≥ p.quorum

/-- The `require`s that are not about the outputs. -/
def Guards (e : Event PublisherTea Call) : Prop :=
  match e.call with
  | .announceRelease publisherSig approverSig bundleHash _ =>
    e.spend.LocktimeInForce ∧ V.checkSig e.spend publisherSig p.publisherKey
      ∧ V.checkSig e.spend approverSig p.approverKey ∧ e.this.state.pendingBundleHash = zero
      ∧ bundleHash.1 ≠ zero
  | .activateRelease publisherSig activateDigest attSigs attSeqs attUsed =>
    e.spend.LocktimeInForce ∧ V.checkSig e.spend publisherSig p.publisherKey
      ∧ e.this.state.pendingBundleHash ≠ zero
      ∧ e.spend.ctx.locktime ≥ e.this.state.pendingAnnounceTime + p.delaySeconds
      ∧ Attested V p activateDigest attSigs attSeqs attUsed
  | .cancelPending cancelSig =>
    e.spend.LocktimeInForce ∧ V.checkSig e.spend cancelSig p.cancelKey
      ∧ e.this.state.pendingBundleHash ≠ zero
  | .invalidateRelease cancelSig _ =>
    e.spend.LocktimeInForce ∧ V.checkSig e.spend cancelSig p.cancelKey
  | .retire publisherSig approverSig =>
    V.checkSig e.spend publisherSig p.publisherKey ∧ V.checkSig e.spend approverSig p.approverKey

end Guards

/-- The payout of `retire`. -/
def retire (P : Prims) (p : PublisherTeaParams) (ctx : Ctx) : Option Bytes := do
  let payout ← buildOutput (buildPublicKeyHashScript (P.hash160 p.publisherKey)) ctx.value
  withChange ctx payout

def outputs (P : Prims) (p : PublisherTeaParams) (e : Event PublisherTea Call) : Option Bytes :=
  match e.call with
  | .announceRelease _ _ bundleHash fileSetRoot =>
    e.this.announceRelease P.sha256 e.spend.ctx bundleHash fileSetRoot
  | .activateRelease _ activateDigest _ _ _ =>
    e.this.activateRelease P.sha256 e.spend.ctx activateDigest
  | .cancelPending _ => e.this.cancelPending P.sha256 e.spend.ctx
  | .invalidateRelease _ activateDigest =>
    e.this.invalidateRelease P.sha256 e.spend.ctx activateDigest
  | .retire _ _ => retire P p e.spend.ctx

/-- The contract after a call. -/
def advance (this : PublisherTea) (e : Event PublisherTea Call) : PublisherTea :=
  match e.call with
  | .announceRelease _ _ bundleHash fileSetRoot =>
    { this with state := ⟨bundleHash.1, fileSetRoot.1, e.spend.ctx.locktime,
      this.state.releaseCount⟩ }
  | .activateRelease .. => { this with state := ⟨zero, zero, 0, this.state.releaseCount + 1⟩ }
  | .cancelPending _ => { this with state := ⟨zero, zero, 0, this.state.releaseCount⟩ }
  | _ => this

def Call.Ends : Call → Prop
  | .retire _ _ => True
  | _ => False

instance : DecidablePred Call.Ends := fun c =>
  match c with
  | .retire _ _ => .isTrue trivial
  | .announceRelease .. => .isFalse id
  | .activateRelease .. => .isFalse id
  | .cancelPending _ => .isFalse id
  | .invalidateRelease .. => .isFalse id

def next (e : Event PublisherTea Call) : Option (PublisherTea × ℤ) :=
  if e.call.Ends then none else some (e.this.advance e, (e.spend.value.toNat : ℤ))

/-- The same code and constants, maybe another state. -/
structure IsState (d this : PublisherTea) : Prop where
  code : this.code = d.code
  stateProps : this.stateProps = d.stateProps
  publisherHash : this.publisherHash = d.publisherHash

/-- The contract as its constructor sets it up. -/
def constructed (this : PublisherTea) : PublisherTea := { this with state := ⟨zero, zero, 0, 0⟩ }

/-- The contract that was deployed as `d`, with the constants `p`. -/
def contract (P : Prims) (V : Verifiers) (p : PublisherTeaParams) (d : PublisherTea) :
    Contract PublisherTea Call where
  Holds this script :=
    d.IsState this ∧ ReadsState this.code this.stateProps
      (publisherTeaStateValues this.constructed.state) (publisherTeaStateValues this.state) script
  Guards := Guards V p
  outputs := outputs P p
  next := next

end PublisherTea

end BonsaiChain.Covenant
