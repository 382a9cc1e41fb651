import BonsaiChain.AgentTeaCovenant
import BonsaiChain.Agentd

/-!
# The lineage of a resumed agent

Runs of the agent, with the contract that stands on chain after each step according to the covenant:
the code part of the deploy output never changes, and each step leaves the state the covenant
computes. What a step persists is compared with its own transaction: the counters and the agent key
with the state section of the tip output, the tip's txid with the transaction's id.
-/

namespace BonsaiChain

/-- The contract a deploy puts on chain. -/
def DeployArgs.contract (d : DeployArgs) (tx : Tx) : Covenant.AgentTea where
  code := (tx.outputs.head?.bind fun o => Covenant.codePart o.script).getD []
  stateProps := d.artifact.stateProps
  params := deployParams d ((hexDecode d.ricardianHash).toOption.getD [])
  agent := d.agentPub.1
  state := agentTeaGenesisState

namespace AgentdOp

variable (this : Covenant.AgentTea)

/-- The contract after the step. -/
def next : AgentdOp → Covenant.AgentTea
  | action _ amount _ _ now _ => this.executed amount now
  | recover newAgent _ _ => this.recovered newAgent

/-- The receipt of the step. -/
def receipt : AgentdOp → Option Bytes
  | action counterparty amount actionHash provenanceHash now _ =>
    this.receipt counterparty amount actionHash provenanceHash now
  | recover newAgent _ _ => this.recoveryReceipt newAgent

end AgentdOp

/-- A step of a run: the state it found, the contract on chain before it and the transaction it
built. -/
structure AgentdEvent where
  st : AgentState
  this : Covenant.AgentTea
  op : AgentdOp
  tx : Tx

/-- Output 0 of the built transaction has the code part of output 0 of the deploy and the state
after the step, and output 1 commits to the step's receipt. -/
def AgentdEvent.KeepsLineage (P : Prims) (deployTx : Tx) (e : AgentdEvent) : Prop :=
  (∃ o ∈ e.tx.outputs.head?, ∃ genesis ∈ deployTx.outputs.head?,
      ∃ code ∈ Covenant.codePart genesis.script, Covenant.codePart o.script = some code
        ∧ Covenant.getStateScript code e.this.stateProps (e.op.next e.this).stateValues
          = some o.script)
    ∧ ∃ pre ∈ e.op.receipt e.this,
      e.tx.outputs[1]? = some ⟨0, Covenant.buildOpreturnScript (P.sha256 pre).1⟩

instance (P : Prims) (deployTx : Tx) (e : AgentdEvent) : Decidable (e.KeepsLineage P deployTx) :=
  inferInstanceAs (Decidable (_ ∧ _))

/-- The persisted agent key before the step is the deployed one. -/
def AgentdEvent.Unrotated (d : DeployArgs) (e : AgentdEvent) : Prop :=
  e.st.agentPubKey = some (hexEncode d.agentPub.1)

/-- A deploy and the successful steps after it. A failed step persists nothing. -/
inductive AgentdRun (P : Prims) (d : DeployArgs) :
    Tx → List AgentdEvent → AgentState → Covenant.AgentTea → Prop
  | deploy {tx : Tx} {st : AgentState} (hok : cmdDeploy d = .ok (tx, st)) :
    AgentdRun P d tx [] st (d.contract tx)
  | step {deployTx tx : Tx} {es : List AgentdEvent} {st st' : AgentState} {this : Covenant.AgentTea}
      {op : AgentdOp} (h : AgentdRun P d deployTx es st this)
      (hok : agentdStep P d.artifact st op = .ok (tx, st')) :
    AgentdRun P d deployTx (es ++ [⟨st, this, op, tx⟩]) st' (op.next this)

section Tip

/-- The counters of a decoded state, as the agent persists them. -/
def AgentTeaState.runtime (s : AgentTeaState) : AgentRuntimeState :=
  ⟨s.txCount, s.spentInWindow, s.windowStart, s.tier, s.recoveryCount⟩

/-- The persisted counters and agent key are those that the state section of the tip output carries,
and the persisted txid is the id of the persisted raw transaction. -/
def AgentState.MirrorsTip (sha256d : Bytes → Bytes) (st : AgentState) : Prop :=
  ∃ rawTxHex ∈ st.tip.rawTxHex, ∃ tip, txDeserialize rawTxHex = .ok tip
    ∧ (∃ o ∈ tip.outputs[st.tip.vout.toNat]?, ∃ s agent, agentTeaFromTx o.script = .ok (s, agent)
      ∧ st.state = s.runtime ∧ st.agentPubKey = some (hexEncode agent))
    ∧ ∃ txid ∈ st.tip.txid, txId sha256d tip = .ok txid

def AgentdOp.args : AgentdOp → StepArgs
  | action _ _ _ _ _ a => a
  | recover _ _ a => a

def signed (tx : Tx) (sigs : List Bytes) : Tx := { tx with inputs := signInputs tx.inputs sigs }

/-- The broadcast service answers with the id of the transaction it was given. -/
def AgentdEvent.AnswersId (sha256d : Bytes → Bytes) (e : AgentdEvent) : Prop :=
  txId sha256d (signed e.tx e.op.args.sigs) = .ok e.op.args.txid

def DeployArgs.AnswersId (sha256d : Bytes → Bytes) (d : DeployArgs) (tx : Tx) : Prop :=
  txId sha256d (signed tx d.sigs) = .ok d.txid

instance (sha256d : Bytes → Bytes) (e : AgentdEvent) : Decidable (e.AnswersId sha256d) :=
  inferInstanceAs (Decidable (_ = _))

instance (sha256d : Bytes → Bytes) (d : DeployArgs) (tx : Tx) :
    Decidable (d.AnswersId sha256d tx) :=
  inferInstanceAs (Decidable (_ = _))

end Tip

end BonsaiChain
