import BonsaiChain.Proofs.SpendHistory
import BonsaiChain.PublisherTeaSpend

/-!
# The PublisherTea contract over a whole chain of spends

At most one release is pending. It was announced by the last announcement, waits until its delay has
passed, and is activated or cancelled before the next one is announced.
-/

namespace BonsaiChain.Covenant.PublisherTea

open Lib

variable {P : Prims} {V : Verifiers} {p : PublisherTeaParams} {d this : PublisherTea} {bs : Bytes}
  {e : Event PublisherTea Call}

section Outputs

/-- The receipt a call leaves. -/
def receipt (e : Event PublisherTea Call) : Option Bytes :=
  match e.call with
  | .announceRelease _ _ bundleHash fileSetRoot =>
    e.this.announceReceipt bundleHash fileSetRoot e.spend.ctx.locktime
  | .activateRelease _ activateDigest _ _ _ =>
    e.this.activateReceipt activateDigest e.spend.ctx.locktime
  | .cancelPending _ => e.this.cancelReceipt e.spend.ctx.locktime
  | .invalidateRelease _ activateDigest =>
    e.this.invalidateReceipt activateDigest e.spend.ctx.locktime
  | .retire _ _ => none

/-- The outputs a call pins, before the change: the payout, or the next state and the receipt. -/
def Pins (P : Prims) (p : PublisherTeaParams) (e : Event PublisherTea Call) (outs : List TxOut) :
    Prop :=
  if e.call.Ends then outs = [⟨e.spend.value, buildP2pkhScript (P.hash160 p.publisherKey)⟩]
  else ∃ pre script, receipt e = some pre
    ∧ CarriesState e.this.code e.this.stateProps (publisherTeaStateValues (e.this.advance e).state)
      script
    ∧ outs = [⟨e.spend.value, script⟩, ⟨0, receiptScript (P.sha256 pre)⟩]

theorem Pins.ok {outs : List TxOut} (h : Pins P p e outs) (hcode : e.this.code.length < 2 ^ 32) :
    ∀ o ∈ outs, o.Ok := by
  unfold Pins at h
  split_ifs at h
  · rw [h, List.forall_mem_singleton]
    exact p2pkh_ok
  · obtain ⟨pre, script, -, hscript, rfl⟩ := h
    exact List.forall_mem_cons.mpr ⟨hscript.length_lt hcode,
      List.forall_mem_singleton.mpr receiptOutput_ok⟩

end Outputs

section Lawful

theorem IsState.advance (h : d.IsState this) (e : Event PublisherTea Call) :
    d.IsState (this.advance e) := by
  obtain ⟨hcode, hprops, hhash⟩ := h
  unfold PublisherTea.advance
  split <;> exact ⟨hcode, hprops, hhash⟩

/-- The first pinned output is what comes next. -/
theorem Pins.stands {outs : List TxOut} (h : Pins P p e outs) (hd : d.IsState e.this) :
    ∃ out os, outs = out :: os ∧ (contract P V p d).Stands (next e) out.satoshis out.script := by
  unfold Pins at h
  unfold next
  split_ifs at h ⊢ with hends
  · exact ⟨_, _, h, fun this' hthis' => not_readsState_p2pkh hthis'.2⟩
  · obtain ⟨pre, script, -, hscript, rfl⟩ := h
    have hnext := hd.advance e
    refine ⟨_, _, rfl, ⟨hnext, .inl ?_⟩, rfl⟩
    rwa [hnext.code, hnext.stateProps, ← hd.code, ← hd.stateProps]

end Lawful

section Runs

variable {pre post es : List (Event PublisherTea Call)} {o o' : ContractOutput}

end Runs

section Releases

variable {pre post es : List (Event PublisherTea Call)} {o o' : ContractOutput}

/-- The state of a contract that has this announcement waiting. -/
def Awaits (q : Option (Event PublisherTea Call)) (s : PublisherTeaState) : Prop :=
  match q with
  | none => s.pendingBundleHash = zero
  | some a => ∃ publisherSig approverSig bundleHash fileSetRoot,
      a.call = .announceRelease publisherSig approverSig bundleHash fileSetRoot
        ∧ bundleHash.1 ≠ zero ∧ s.pendingBundleHash = bundleHash.1
        ∧ s.pendingFileSetRoot = fileSetRoot.1 ∧ s.pendingAnnounceTime = a.spend.ctx.locktime

theorem Awaits.isSome {q : Option (Event PublisherTea Call)} {s : PublisherTeaState}
    (h : Awaits q s) : q.isSome ↔ s.pendingBundleHash ≠ zero := by
  rcases q with _ | a
  · simp [show s.pendingBundleHash = zero from h]
  · obtain ⟨_, _, bundleHash, _, -, hne, hbundle, -⟩ := h
    simpa [hbundle] using hne

section Example

/-- A publisher with one attestor and a delay of a day. -/
def exampleParams : PublisherTeaParams :=
  ⟨List.replicate 33 2, List.replicate 33 3, List.replicate 33 4, List.replicate 32 0x11, 86400,
    BuilderCall.exampleRabinKeys, 1⟩

def exampleTea : PublisherTea :=
  ⟨[0x51], BuilderCall.examplePublisher.artifact.stateProps, exampleParams.publisherHash,
    ⟨zero, zero, 0, 0⟩⟩

def exampleScript (this : PublisherTea) (isGenesis : Bool) : Bytes :=
  this.code ++ [0x6a]
    ++ (buildState this.stateProps (publisherTeaStateValues this.state) isGenesis).toOption.getD []

def exampleIdentity : ContractOutput := ⟨txidOf 1, 0, 1000, exampleScript exampleTea true⟩

/-- The outputs of a call of the example. -/
def exampleOutputs (e : Event PublisherTea Call) : TxOut × List TxOut :=
  (⟨1000, exampleScript (e.this.advance e) false⟩,
    [⟨0, receiptScript (sha256 ((receipt e).getD []))⟩])

def exampleAnnounce (bundle : UInt8) : Call :=
  .announceRelease (List.replicate 33 2) (List.replicate 33 3) (Block.fill 32 bundle)
    (Block.fill 32 0x33)

def exampleActivate : Call :=
  .activateRelease (List.replicate 33 2) (Block.fill 32 0x44) #v[⟨10, [0]⟩, ⟨0, []⟩, ⟨0, []⟩]
    #v[3, 0, 0] #v[true, false, false]

def exampleFirst : Event PublisherTea Call × ContractOutput :=
  callAlone codePrims exampleOutputs exampleIdentity exampleTea (exampleAnnounce 0x22) 1000

def exampleSecond : Event PublisherTea Call × ContractOutput :=
  callAlone codePrims exampleOutputs exampleFirst.2 (exampleTea.advance exampleFirst.1)
    exampleActivate 90000

def exampleThird : Event PublisherTea Call × ContractOutput :=
  callAlone codePrims exampleOutputs exampleSecond.2
    (run advance exampleTea [exampleFirst.1, exampleSecond.1]) (exampleAnnounce 0x23) 91000

def exampleCalls : List (Event PublisherTea Call) :=
  [exampleFirst.1, exampleSecond.1, exampleThird.1]

theorem exampleDeployed : (contract codePrims exampleVerifiers exampleParams exampleTea).Holds
    exampleTea exampleIdentity.script :=
  ⟨⟨rfl, rfl, rfl⟩, .inr ⟨rfl, raisesGenesis_buildState (by decide +kernel : buildState
    exampleTea.stateProps (publisherTeaStateValues exampleTea.state) true
      = .ok (exampleIdentity.script.drop 2))⟩⟩

example : exampleThird.1.this.state.pendingBundleHash = zero
    ∧ exampleThird.1.this.state.releaseCount = 1 := by decide +kernel

end Example

end Releases

section History

open ReputationIndexer

variable {es : List (Event PublisherTea Call)} {o o' : ContractOutput}

/-- The digest in the receipt output of a call. -/
def receiptHash (P : Prims) (e : Event PublisherTea Call) : Option (Block 32) :=
  (receipt e).map P.sha256

example : (exampleCalls.map (receiptHash codePrims)).map Option.isSome = [true, true, true] := by
  decide +kernel

end History

end BonsaiChain.Covenant.PublisherTea
