import BonsaiChain.Lib.RollingWindow
import BonsaiChain.Proofs.SpendHistory
import BonsaiChain.RicardianTeaSpend

/-!
# The RicardianTea contract over a whole chain of spends

The checkpoint of a contract is the hash of the last of a chain of headers that starts from the
checkpoint it was deployed with. A slashing shows a block that leads to the checkpoint of its time.
-/

namespace BonsaiChain.Covenant

open Lib

section Headers

variable {B : BlockchainLib} {target : ℤ} {start start' mid tip : Block 32}
  {xs ys : List BlockHeader} {header : BlockHeader}

end Headers

namespace RicardianTea

variable {P : Prims} {V : Verifiers} {B : BlockchainLib} {d this : RicardianTea} {bs : Bytes}
  {e : Event RicardianTea Call}

section Outputs

/-- The outputs a call pins, before the change. -/
def Pins (P : Prims) (e : Event RicardianTea Call) (outs : List TxOut) : Prop :=
  let value := e.spend.value
  let Carries := CarriesState e.this.code e.this.stateProps
    (ricardianTeaStateValues (e.this.advance e).state)
  match e.call with
  | .executeTea _ _ counterparty amount invoiceHash provenanceHash attestedLimit _ =>
    executeTeaRequires e.this.params e.this.state amount attestedLimit e.spend.ctx.locktime
      ∧ ∃ receipt payment script, e.this.receipt counterparty amount invoiceHash provenanceHash
          e.spend.ctx.locktime = some receipt ∧ ((payment : UInt64).toNat : ℤ) = amount
        ∧ Carries script
        ∧ outs = [⟨value, script⟩, ⟨payment, buildP2pkhScript (P.hash160 counterparty.1)⟩,
          ⟨0, receiptScript (P.sha256 receipt)⟩]
  | .slash attAmount attLimit _ _ _ _ _ _ _ _ confirmationCount reporter =>
    slashRequires e.this.params e.this.state attAmount attLimit confirmationCount
      ∧ outs = [⟨value, buildP2pkhScript (P.hash160 reporter.1)⟩]
  | .updateSlashCheckpoint _ _ headerCount _ =>
    updateSlashCheckpointRequires headerCount ∧ ∃ script, Carries script ∧ outs = [⟨value, script⟩]
  | .revoke _ => outs = [⟨value, buildP2pkhScript (P.hash160 e.this.params.owner)⟩]

theorem Pins.ok {outs : List TxOut} (h : Pins P e outs) (hcode : e.this.code.length < 2 ^ 32) :
    ∀ o ∈ outs, o.Ok := by
  obtain ⟨this, spend, call⟩ := e
  cases call with
  | executeTea =>
    obtain ⟨-, receipt, payment, script, -, -, hscript, rfl⟩ := h
    simp only [List.forall_mem_cons]
    exact ⟨hscript.length_lt hcode, p2pkh_ok, receiptOutput_ok, List.forall_mem_nil _⟩
  | slash =>
    obtain ⟨-, rfl⟩ := h
    exact List.forall_mem_singleton.mpr p2pkh_ok
  | updateSlashCheckpoint =>
    obtain ⟨-, script, hscript, rfl⟩ := h
    exact List.forall_mem_singleton.mpr (hscript.length_lt hcode)
  | revoke =>
    rw [show outs = _ from h, List.forall_mem_singleton]
    exact p2pkh_ok

end Outputs

section Lawful

theorem IsState.advance (h : d.IsState this) (e : Event RicardianTea Call) :
    d.IsState (this.advance e) := by
  obtain ⟨hcode, hprops, hparams⟩ := h
  unfold RicardianTea.advance
  split <;> exact ⟨hcode, hprops, hparams⟩

/-- The first pinned output is what comes next. -/
theorem Pins.stands {outs : List TxOut} (h : Pins P e outs) (hd : d.IsState e.this) :
    ∃ out os, outs = out :: os ∧ (contract P V B d).Stands (next e) out.satoshis out.script := by
  have hnext := hd.advance e
  obtain ⟨this, spend, call⟩ := e
  have hcarries : ∀ {script : Bytes}, CarriesState this.code this.stateProps
        (ricardianTeaStateValues (this.advance ⟨this, spend, call⟩).state) script →
      (contract P V B d).Stands (some (this.advance ⟨this, spend, call⟩,
        (spend.value.toNat : ℤ))) spend.value script := by
    intro script hscript
    refine ⟨⟨hnext, .inl ?_⟩, rfl⟩
    rwa [hnext.code, hnext.stateProps, ← hd.code, ← hd.stateProps]
  cases call with
  | executeTea =>
    obtain ⟨-, receipt, payment, script, -, -, hscript, rfl⟩ := h
    exact ⟨_, _, rfl, hcarries hscript⟩
  | slash =>
    obtain ⟨-, rfl⟩ := h
    exact ⟨_, _, rfl, fun this' hthis' => not_readsState_p2pkh hthis'.2⟩
  | updateSlashCheckpoint =>
    obtain ⟨-, script, hscript, rfl⟩ := h
    exact ⟨_, _, rfl, hcarries hscript⟩
  | revoke =>
    exact ⟨_, _, h, fun this' hthis' => not_readsState_p2pkh hthis'.2⟩

end Lawful

section Runs

variable {pre post es : List (Event RicardianTea Call)} {o o' : ContractOutput}

end Runs

section Checkpoint

variable {pre post es : List (Event RicardianTea Call)} {o o' : ContractOutput}
  {checkpoint : Block 32}

end Checkpoint

section Payments

variable {pre post es : List (Event RicardianTea Call)} {o o' : ContractOutput}

end Payments

section Example

/-- The header functions on the hash of the examples. -/
def exampleLib : BlockchainLib :=
  ⟨fun header => ((blockHeaderHash codePrims header).toOption).getD (Block.fill 32 0),
    isValidBlockHeader codePrims, txInBlock codePrims⟩

def exampleReceiptOutput : Bytes := printTxOut ⟨0, receiptScript (Block.fill 32 0x55)⟩

def exampleBits : Block 4 := ⟨[0xff, 0xff, 0xff, 0x20], rfl⟩

/-- A block of one transaction, which has the receipt for its only text. -/
def exampleBlock : BlockHeader where
  version := Block.fill 4 1
  prevBlockHash := Block.fill 32 0
  merkleRoot := sha256d codePrims exampleReceiptOutput
  time := 0
  bits := exampleBits
  nonce := 0

def exampleConfirmation : BlockHeader where
  version := Block.fill 4 1
  prevBlockHash := exampleLib.blockHeaderHash exampleBlock
  merkleRoot := Block.fill 32 0
  time := 0
  bits := exampleBits
  nonce := 0

/-- A contract that graduates with its first action. -/
def exampleParams : RicardianTeaParams :=
  ⟨List.replicate 33 4, List.replicate 33 2, List.replicate 32 0x11, 100000, 1000000, 86400, 1,
    50000, 35, 77, 2 ^ 256, 1, (exampleLib.blockHeaderHash exampleBlock).1⟩

def exampleTea : RicardianTea where
  code := [0x51]
  stateProps := [⟨ascii "txCount", .int⟩, ⟨ascii "spentInWindow", .int⟩,
    ⟨ascii "windowStart", .int⟩, ⟨ascii "tier", .int⟩, ⟨ascii "slashCheckpointHash", .sha256⟩]
  params := exampleParams
  state := ricardianTeaGenesisState exampleParams

def exampleScript (this : RicardianTea) (isGenesis : Bool) : Bytes :=
  this.code ++ [0x6a]
    ++ (buildState this.stateProps (ricardianTeaStateValues this.state) isGenesis).toOption.getD []

def exampleIdentity : ContractOutput := ⟨txidOf 1, 0, 1000, exampleScript exampleTea true⟩

/-- The outputs of a call of the example. -/
def exampleOutputs (e : Event RicardianTea Call) : TxOut × List TxOut :=
  match e.call with
  | .executeTea _ _ counterparty amount invoiceHash provenanceHash _ _ =>
    let receipt := e.this.receipt counterparty amount invoiceHash provenanceHash
      e.spend.ctx.locktime
    (⟨1000, exampleScript (e.this.advance e) false⟩,
      [⟨amount.toNat.toUInt64, buildP2pkhScript (codePrims.hash160 counterparty.1)⟩,
        ⟨0, receiptScript (sha256 (receipt.getD []))⟩])
  | .slash _ _ _ _ _ _ _ _ _ _ _ reporter =>
    (⟨1000, buildP2pkhScript (codePrims.hash160 reporter.1)⟩, [])
  | _ => (⟨1000, exampleScript (e.this.advance e) false⟩, [])

def exampleExecute : Call :=
  .executeTea (List.replicate 33 2) (List.replicate 33 3) (Block.fill 33 3) 100
    (Block.fill 32 0x22) (Block.fill 32 0x33) 0 ⟨0, []⟩

def exampleUpdate : Call :=
  .updateSlashCheckpoint (List.replicate 33 4) (Vector.replicate 6 exampleConfirmation) 1
    (exampleLib.blockHeaderHash exampleConfirmation)

def exampleSlash : Call :=
  .slash 200 100 (Block.fill 32 0x55) ⟨22, [0, 0, 0]⟩ [] []
    (sha256d codePrims exampleReceiptOutput) exampleBlock
    (Vector.replicate merkleProofDepth ⟨Block.fill 32 0, merkleInvalidNode⟩)
    (Vector.replicate 6 exampleConfirmation) 1 (Block.fill 33 5)

def exampleFirst : Event RicardianTea Call × ContractOutput :=
  callAlone codePrims exampleOutputs exampleIdentity exampleTea exampleExecute 90000

def exampleSecond : Event RicardianTea Call × ContractOutput :=
  callAlone codePrims exampleOutputs exampleFirst.2 (exampleTea.advance exampleFirst.1)
    exampleUpdate 90000

def exampleThird : Event RicardianTea Call × ContractOutput :=
  callAlone codePrims exampleOutputs exampleSecond.2
    (run advance exampleTea [exampleFirst.1, exampleSecond.1]) exampleSlash 90000

def exampleCalls : List (Event RicardianTea Call) :=
  [exampleFirst.1, exampleSecond.1, exampleThird.1]

theorem exampleDeployed : (contract codePrims exampleVerifiers exampleLib exampleTea).Holds
    exampleTea exampleIdentity.script :=
  ⟨⟨rfl, rfl, rfl⟩, .inr ⟨rfl, raisesGenesis_buildState (by decide +kernel : buildState
    exampleTea.stateProps (ricardianTeaStateValues exampleTea.state) true
      = .ok (exampleIdentity.script.drop 2))⟩⟩

example : exampleThird.1.this.state.txCount = 1 ∧ exampleThird.1.this.state.tier = 2 := by
  decide +kernel

end Example

section History

open ReputationIndexer

variable {es : List (Event RicardianTea Call)} {o o' : ContractOutput}

/-- The digest in the receipt output of a call. -/
def receiptHash (P : Prims) (e : Event RicardianTea Call) : Option (Block 32) :=
  match e.call with
  | .executeTea _ _ counterparty amount invoiceHash provenanceHash _ _ =>
    (e.this.receipt counterparty amount invoiceHash provenanceHash e.spend.ctx.locktime).map
      P.sha256
  | _ => none

-- nothing for the checkpoint and the slash
example : (exampleCalls.map (receiptHash codePrims)).map Option.isSome = [true, false, false] := by
  decide +kernel

end History

end RicardianTea

end BonsaiChain.Covenant
