import BonsaiChain.AgentTeaSpend
import BonsaiChain.Lib.RollingWindow
import BonsaiChain.Proofs.SpendHistory

/-!
# The AgentTea contract over a whole chain of spends

Every accepted call makes one move of the contract by itself, so a chain of spends behind a deployed
output is a run of its calls.
-/

namespace BonsaiChain.Covenant

open Lib

namespace AgentTea

variable {P : Prims} {V : Verifiers} {d this : AgentTea} {ctx : Ctx} {bs : Bytes}
  {e : Event AgentTea Call}

section Outputs

/-- The digest in the receipt output of a call. -/
def receiptHash (P : Prims) (e : Event AgentTea Call) : Option (Block 32) :=
  match e.call with
  | .executeAction _ _ counterparty amount actionHash provenanceHash _ _ =>
    (e.this.receipt counterparty amount actionHash provenanceHash e.spend.ctx.locktime).map P.sha256
  | .recover newAgent _ _ => (e.this.recoveryReceipt newAgent).map P.sha256
  | _ => none

/-- The outputs a call pins, before the change. -/
def Pins (P : Prims) (e : Event AgentTea Call) (outs : List TxOut) : Prop :=
  let value := e.spend.value
  let Carries := CarriesState e.this.code e.this.stateProps (e.this.advance e).stateValues
  match e.call with
  | .executeAction _ _ counterparty amount actionHash provenanceHash attestedLimit _ =>
    executeActionRequires e.this.params e.this.state amount attestedLimit e.spend.ctx.locktime
      ∧ ∃ receipt script, e.this.receipt counterparty amount actionHash provenanceHash
          e.spend.ctx.locktime = some receipt ∧ Carries script
        ∧ outs = [⟨value, script⟩, ⟨0, receiptScript (P.sha256 receipt)⟩]
  | .stake addAmount =>
    0 < addAmount ∧ ∃ total script, ((total : UInt64).toNat : ℤ) = value.toNat + addAmount
      ∧ Carries script ∧ outs = [⟨total, script⟩]
  | .slashValidator _ _ attAmount attLimit _ _ reporter =>
    slashValidatorRequires e.this.state attAmount attLimit
      ∧ outs = [⟨value / 2, buildP2pkhScript (P.hash160 reporter.1)⟩,
        ⟨value - value / 2, slashedScript⟩]
  | .recover newAgent recoverUsed _ =>
    recoverRequires e.this.params recoverUsed
      ∧ ∃ receipt script, e.this.recoveryReceipt newAgent = some receipt ∧ Carries script
        ∧ outs = [⟨value, script⟩, ⟨0, receiptScript (P.sha256 receipt)⟩]
  | .revoke _ => outs = [⟨value, buildP2pkhScript (P.hash160 e.this.params.owner)⟩]

theorem Pins.ok {outs : List TxOut} (h : Pins P e outs) (hcode : e.this.code.length < 2 ^ 32) :
    ∀ o ∈ outs, o.Ok := by
  have hok : ∀ {v : UInt64} {script : Bytes},
      CarriesState e.this.code e.this.stateProps (e.this.advance e).stateValues script →
      TxOut.Ok ⟨v, script⟩ := fun hscript => hscript.length_lt hcode
  obtain ⟨this, spend, call⟩ := e
  cases call with
  | executeAction =>
    obtain ⟨-, receipt, script, -, hscript, rfl⟩ := h
    exact List.forall_mem_cons.mpr ⟨hok hscript, List.forall_mem_singleton.mpr receiptOutput_ok⟩
  | stake =>
    obtain ⟨-, total, script, -, hscript, rfl⟩ := h
    exact List.forall_mem_singleton.mpr (hok hscript)
  | slashValidator =>
    obtain ⟨-, rfl⟩ := h
    exact List.forall_mem_cons.mpr ⟨p2pkh_ok, List.forall_mem_singleton.mpr slashedOutput_ok⟩
  | recover =>
    obtain ⟨-, receipt, script, -, hscript, rfl⟩ := h
    exact List.forall_mem_cons.mpr ⟨hok hscript, List.forall_mem_singleton.mpr receiptOutput_ok⟩
  | revoke =>
    rw [show outs = _ from h, List.forall_mem_singleton]
    exact p2pkh_ok

end Outputs

section Lawful

theorem IsState.constructed (h : d.IsState this) :
    this.constructed.stateValues = d.constructed.stateValues := by
  simp only [stateValues, AgentTea.constructed, h.params]

theorem IsState.advance (h : d.IsState this) (e : Event AgentTea Call) :
    d.IsState (this.advance e) := by
  obtain ⟨hcode, hprops, hparams⟩ := h
  unfold AgentTea.advance
  split <;> exact ⟨hcode, hprops, hparams⟩

/-- The first pinned output is what comes next. -/
theorem Pins.stands {outs : List TxOut} (h : Pins P e outs) (hd : d.IsState e.this) :
    ∃ out os, outs = out :: os ∧ (contract P V d).Stands (next e) out.satoshis out.script := by
  have hnext := hd.advance e
  obtain ⟨this, spend, call⟩ := e
  have hcarries : ∀ {value : UInt64} {script : Bytes},
      CarriesState this.code this.stateProps (this.advance ⟨this, spend, call⟩).stateValues script →
      (value.toNat : ℤ) = spend.value.toNat + staked ⟨this, spend, call⟩ →
      (contract P V d).Stands (some (this.advance ⟨this, spend, call⟩,
        (spend.value.toNat : ℤ) + staked ⟨this, spend, call⟩)) value script := by
    intro value script hscript hvalue
    refine ⟨⟨hnext, .inl ?_⟩, hvalue⟩
    rwa [hnext.code, hnext.stateProps, ← hd.code, ← hd.stateProps]
  cases call with
  | executeAction =>
    obtain ⟨-, receipt, script, -, hscript, rfl⟩ := h
    exact ⟨_, _, rfl, hcarries hscript (add_zero _).symm⟩
  | stake =>
    obtain ⟨-, total, script, htotal, hscript, rfl⟩ := h
    exact ⟨_, _, rfl, hcarries hscript htotal⟩
  | slashValidator =>
    obtain ⟨-, rfl⟩ := h
    exact ⟨_, _, rfl, fun this' hthis' => not_readsState_p2pkh hthis'.2⟩
  | recover =>
    obtain ⟨-, receipt, script, -, hscript, rfl⟩ := h
    exact ⟨_, _, rfl, hcarries hscript (add_zero _).symm⟩
  | revoke =>
    exact ⟨_, _, h, fun this' hthis' => not_readsState_p2pkh hthis'.2⟩

end Lawful

section Runs

variable {pre post es : List (Event AgentTea Call)} {o o' : ContractOutput}

end Runs

section Example

/-- An identity as it is deployed, and its script. -/
def exampleTea : AgentTea :=
  ⟨[0x51], TeaMethod.exampleAgentTea.artifact.stateProps, TeaMethod.exampleAgentTea.params,
    List.replicate 33 2, agentTeaGenesisState⟩

def exampleScript (this : AgentTea) (isGenesis : Bool) : Bytes :=
  this.code ++ [0x6a]
    ++ (buildState this.stateProps this.stateValues isGenesis).toOption.getD []

def exampleIdentity : ContractOutput := ⟨txidOf 1, 0, 1000, exampleScript exampleTea true⟩

/-- The outputs of a call of the example. -/
def exampleOutputs (e : Event AgentTea Call) : TxOut × List TxOut :=
  (⟨e.spend.value + (staked e).toNat.toUInt64, exampleScript (e.this.advance e) false⟩,
    (receiptHash codePrims e).toList.map fun hash => ⟨0, receiptScript hash⟩)

def exampleAction (agent : UInt8) (amount : ℤ) : Call :=
  .executeAction (List.replicate 33 agent) (List.replicate 33 3) (Block.fill 33 3) amount
    (Block.fill 32 0x22) (Block.fill 32 0x33) 0 ⟨0, []⟩

def exampleRecovery : Call :=
  .recover (Block.fill 33 6) #v[true, true, false] #v[⟨3, []⟩, ⟨24, []⟩, ⟨0, []⟩]

def exampleFirst : Event AgentTea Call × ContractOutput :=
  callAlone codePrims exampleOutputs exampleIdentity exampleTea (exampleAction 2 100) 90000

def exampleSecond : Event AgentTea Call × ContractOutput :=
  callAlone codePrims exampleOutputs exampleFirst.2 (exampleTea.advance exampleFirst.1)
    exampleRecovery 90000

def exampleThird : Event AgentTea Call × ContractOutput :=
  callAlone codePrims exampleOutputs exampleSecond.2
    (run advance exampleTea [exampleFirst.1, exampleSecond.1]) (exampleAction 6 250) 180000

def exampleFourth : Event AgentTea Call × ContractOutput :=
  callAlone codePrims exampleOutputs exampleThird.2
    (run advance exampleTea [exampleFirst.1, exampleSecond.1, exampleThird.1]) (.stake 500) 180000

def exampleCalls : List (Event AgentTea Call) :=
  [exampleFirst.1, exampleSecond.1, exampleThird.1, exampleFourth.1]

theorem exampleDeployed : (contract codePrims exampleVerifiers exampleTea).Holds exampleTea
    exampleIdentity.script :=
  ⟨⟨rfl, rfl, rfl⟩, .inr ⟨rfl, raisesGenesis_buildState (by decide +kernel : buildState
    exampleTea.stateProps exampleTea.stateValues true = .ok (exampleIdentity.script.drop 2))⟩⟩

example : exampleFourth.1.this.agent = List.replicate 33 6 := by decide +kernel

end Example

section Authority

variable {pre post es : List (Event AgentTea Call)} {o o' : ContractOutput}

end Authority

section InputZero

variable {d' : AgentTea} {e' : Event AgentTea Call} {o o' o₁ o₁' : ContractOutput}

/-- Two spellings of a txid. -/
def exampleSpelling (upper : Bool) : CString :=
  (List.replicate 32 (if upper then ascii "AB" else ascii "ab")).flatten

/-- A transaction that stakes on one identity, named in both spellings. -/
def exampleTwice : Tx :=
  ⟨1, [⟨exampleSpelling false, 0, [], 0⟩, ⟨exampleSpelling true, 0, [], 0⟩],
    [⟨1500, exampleScript exampleTea false⟩], 0⟩

def exampleStake (upper : Bool) : Event AgentTea Call :=
  ⟨exampleTea, ⟨exampleTwice, upper.toNat, 1000, 0, Block.fill 20 0,
    (List.replicate 2 (List.replicate 32 0xab ++ List.replicate 4 0)).flatten⟩, .stake 500⟩

end InputZero

section Spending

variable {es : List (Event AgentTea Call)} {o o' : ContractOutput}

end Spending

section History

open ReputationIndexer

variable {es : List (Event AgentTea Call)} {o o' : ContractOutput}

-- two actions and a recovery, and nothing for the stake
example : (exampleCalls.map (receiptHash codePrims)).map Option.isSome
    = [true, true, true, false] := by decide +kernel

end History

end AgentTea

end BonsaiChain.Covenant
