import BonsaiChain.AgentStateFile
import BonsaiChain.AgentdLineage
import BonsaiChain.AgentdPersistence
import BonsaiChain.ChainBroadcast

/-!
# Agents that are killed

Invocations of `scripts/agentd_lib.c` on one state file, any number of them at a time: each reads
the file, has one transaction taken by the network, and then writes the journal and the file. Any of
them may be killed at any point, other transactions are taken between theirs, and the power may go,
which ends all of them. The network takes no output twice. A signed counter that overflows is
undefined in C; no invocation here has one.
-/

namespace BonsaiChain

open Lib Traced

namespace StateFile

section Record

variable (st : AgentState) (next : BonsaiChain.AgentState) (txid : CString)

def AgentParams.live (p : AgentParams) : BonsaiChain.AgentParams :=
  ⟨p.perTxLimit.toInt, p.dailyLimit.toInt, p.windowDuration.toInt, p.graduationThreshold.toInt,
    p.validatorThreshold.toInt, p.recoveryThreshold.toInt⟩

def AgentRuntimeState.live (s : AgentRuntimeState) : BonsaiChain.AgentRuntimeState :=
  ⟨s.txCount.toInt, s.spentInWindow.toInt, s.windowStart.toInt, s.tier.toInt,
    s.recoveryCount.toInt⟩

/-- What a step reads of a state. -/
def AgentState.live : BonsaiChain.AgentState where
  ricardianHash := st.ricardianHash.map Subtype.val
  owner := st.owner.map Subtype.val
  agentPubKey := st.agentPubKey.map Subtype.val
  params := st.params.live
  rabinPub := ⟨st.rabinPub.guardian.map Subtype.val, st.rabinPub.ownValidator.map Subtype.val,
    st.rabinPub.recovery.map fun r => (r.map Subtype.val).getD []⟩
  tip := ⟨st.tip.txid.map Subtype.val, st.tip.vout, st.tip.rawTxHex.map Subtype.val⟩
  state := st.state.live

def tipRecord (t : BonsaiChain.AgentTip) : AgentTip :=
  ⟨t.txid.map cStr, t.vout, t.rawTxHex.map cStr⟩

def runtimeRecord (s : BonsaiChain.AgentRuntimeState) : AgentRuntimeState :=
  ⟨.ofInt s.txCount, .ofInt s.spentInWindow, .ofInt s.windowStart, .ofInt s.tier,
    .ofInt s.recoveryCount⟩

/-- `history += {op, txid}`. -/
def AgentState.logged (op : String) : AgentState :=
  { st with history := st.history ++ [⟨some (key op), some (cStr txid)⟩] }

/-- What `deploy` persists. -/
def deployRecord (d : DeployArgs) (network : CStr) (counterparty : Block 33) : AgentState where
  schema := some agentStateSchema
  network := some network
  genesisTxid := some (cStr d.txid)
  ricardianHash := next.ricardianHash.map cStr
  owner := next.owner.map cStr
  agentPubKey := next.agentPubKey.map cStr
  counterpartyPubKey := some (cStr (hexEncode counterparty.1))
  charter := some (cStr (ascii "bonsai agent " ++ d.ricardianHash))
  params := agentParamsDefaults
  rabinPub := ⟨next.rabinPub.guardian.map cStr, next.rabinPub.ownValidator.map cStr,
    next.rabinPub.recovery.map fun r => some (cStr r)⟩
  identitySats := 1
  tip := tipRecord next.tip
  state := runtimeRecord next.state
  status := .deployed
  history := [⟨some (key "deploy"), some (cStr d.txid)⟩]

/-- What `action` persists. -/
def AgentState.actioned : AgentState :=
  ({ st with
    state := runtimeRecord next.state
    status := .actioned
    tip := tipRecord next.tip } : AgentState).logged txid "action"

/-- What `recover` persists. -/
def AgentState.recovered : AgentState :=
  ({ st with
    agentPubKey := next.agentPubKey.map cStr
    state := runtimeRecord next.state
    tip := tipRecord next.tip } : AgentState).logged txid "recover"

/-- What `revoke` persists: the tip stays. -/
def AgentState.revoked : AgentState :=
  ({ st with status := .revoked } : AgentState).logged txid "revoke"

end Record

end StateFile

/-- `revoke`: the transaction and its raw hex. -/
def cmdRevoke (P : Prims) (artifact : ScryptArtifact) (st : AgentState) (a : StepArgs) :
    Except CString (Tx × CString) := do
  let (inst, _, identityValue) ← instanceAtTip st artifact
  failIf (a.funding = [])
    "FUND_REVOKE_KEY_FILE/FUND_ACTION_KEY_FILE is required to fund the revoke fee"
  let b ← orFail (buildAgentTeaRevoke P inst (identityAtTip st identityValue) a.opts txBuilderInit)
    "revoke build failed"
  let rawHex ← orFail (signAndBuild b a.sigs) "revoke signing failed"
  return (b, rawHex)

inductive AgentdCommand where
  | step (op : AgentdOp)
  | revoke (a : StepArgs)

namespace AgentdCommand

def args : AgentdCommand → StepArgs
  | step op => op.args
  | revoke a => a

/-- The tag in the journal. -/
def tag : AgentdCommand → CString
  | step (.action ..) => ascii "action"
  | step (.recover ..) => ascii "recover"
  | revoke _ => ascii "revoke"

/-- The command builds a transaction from the state it read, with its raw hex and the record to be
persisted; the counters are in range. -/
inductive Builds (P : Prims) (artifact : ScryptArtifact) (st : StateFile.AgentState) :
    AgentdCommand → Tx → CString → StateFile.AgentState → Prop
  | action {counterparty : Block 33} {amount : ℕ} {actionHash provenanceHash : Block 32} {now : ℤ}
      {a : StepArgs} {tx : Tx} {next : AgentState} {rawHex : CString}
      (hok : agentdStep P artifact st.live
        (.action counterparty amount actionHash provenanceHash now a) = .ok (tx, next))
      (hfits : (StateFile.runtimeRecord next.state).live = next.state)
      (hraw : next.tip.rawTxHex = some rawHex) :
    Builds P artifact st (.step (.action counterparty amount actionHash provenanceHash now a)) tx
      rawHex (st.actioned next a.txid)
  | recover {newAgent : Block 33} {used : ℕ} {a : StepArgs} {tx : Tx} {next : AgentState}
      {rawHex : CString}
      (hok : agentdStep P artifact st.live (.recover newAgent used a) = .ok (tx, next))
      (hfits : (StateFile.runtimeRecord next.state).live = next.state)
      (hraw : next.tip.rawTxHex = some rawHex) :
    Builds P artifact st (.step (.recover newAgent used a)) tx rawHex (st.recovered next a.txid)
  | revoke {a : StepArgs} {tx : Tx} {rawHex : CString}
      (hok : cmdRevoke P artifact st.live a = .ok (tx, rawHex)) :
    Builds P artifact st (.revoke a) tx rawHex (st.revoked a.txid)

end AgentdCommand

/-- What follows an accepted broadcast. That the journal fails is a warning. -/
def persistStep (stateFile : CString) (override : Option CString) (tag txid : CString)
    (record : StateFile.AgentState) (journal : JournalAnswers) (os : AtomicAnswers) :
    Traced PathEffect (Except Err Unit) := do
  let _ ← agentdJournalBroadcast stateFile tag txid override journal
  agentdWriteFileAtomic stateFile (StateFile.agentStateToJson record) os

section Network

/-- The outputs a transaction spends. -/
def Tx.spends (tx : Tx) : List (CString × UInt32) :=
  tx.inputs.map fun i => (hexToLower i.prevTxidDisplay, i.vout)

variable {ι : Type}

/-- The transactions the network has taken, with the invocation that sent them. -/
abbrev Network (ι : Type) := List (Option ι × Tx)

def Network.Spent (n : Network ι) (o : CString × UInt32) : Prop := ∃ t ∈ n, o ∈ t.2.spends

def Network.Accepts (n : Network ι) (tx : Tx) : Prop := ∀ o ∈ tx.spends, ¬n.Spent o

/-- The transactions of the invocations. -/
def Network.sent (n : Network ι) : List Tx := n.filterMap fun t => t.1.map fun _ => t.2

end Network

/-- The output that the next step spends. -/
def AgentState.outpoint (st : AgentState) : CString × UInt32 :=
  (hexToLower (st.tip.txid.getD []), st.tip.vout)

/-- The transaction as it was sent. -/
def AgentdEvent.sent (e : AgentdEvent) : Tx := signed e.tx e.op.args.sigs

/-- An invocation that has read the state file, or whose transaction was taken, with what it still
does to the disk and what it returns. -/
inductive Invocation where
  | loaded (st : StateFile.AgentState)
  | saving (record : StateFile.AgentState) (rest : List PathEffect)
      (rc : Option (Except Err Unit))

/-- The records that are reported are those of the invocations that exited with 0. -/
structure AgentdWorld (ι : Type) where
  disk : PathDisk
  network : Network ι
  running : ι → Option Invocation
  reported : List StateFile.AgentState

namespace AgentdWorld

open Function

variable {ι : Type} [DecidableEq ι] (P : Prims) (artifact : ScryptArtifact) (stateFile : CString)
  (override : Option CString)

/-- An invocation goes on, or ends. -/
def set (w : AgentdWorld ι) (i : ι) (inv : Option Invocation) : AgentdWorld ι :=
  { w with running := update w.running i inv }

def report (w : AgentdWorld ι) (record : StateFile.AgentState) :
    Except Err Unit → List StateFile.AgentState
  | .ok () => w.reported ++ [record]
  | .error _ => w.reported

/-- `spent` answers the liveness check. A lost answer to an accepted broadcast is a `stop` after
`send`. -/
inductive Step (w : AgentdWorld ι) : AgentdWorld ι → Prop
  | load (i : ι) {text : Bytes} {st : StateFile.AgentState} (hidle : w.running i = none)
      (hread : w.disk.read stateFile = some text)
      (hparse : StateFile.agentStateFromJson text = .ok st) :
    Step w (w.set i (some (.loaded st)))
  | send (i : ι) {st record : StateFile.AgentState} {cmd : AgentdCommand} {tx : Tx}
      {rawHex : CString} {spent : CString → UInt32 → Except Err Bool} {woc : WocClient}
      (journal : JournalAnswers) (os : AtomicAnswers)
      (hloaded : w.running i = some (.loaded st))
      (hlive : ∀ txid ∈ st.tip.txid, spent txid.val st.tip.vout = .ok false)
      (hbuilds : cmd.Builds P artifact st tx rawHex record)
      (hsend : chainBroadcastSend P woc rawHex = .ok cmd.args.txid)
      (haccepts : w.network.Accepts (signed tx cmd.args.sigs)) :
    Step w
      ({ w with network := w.network ++ [(some i, signed tx cmd.args.sigs)] }.set i
        (some (.saving record
          (persistStep stateFile override cmd.tag cmd.args.txid record journal os).effects
          (persistStep stateFile override cmd.tag cmd.args.txid record journal os).result)))
  | effect (i : ι) {record : StateFile.AgentState} {e : PathEffect} {rest : List PathEffect}
      {rc : Option (Except Err Unit)} (hsaving : w.running i = some (.saving record (e :: rest) rc))
      (hallows : w.disk.Allows e) :
    Step w ({ w with disk := w.disk.apply parentDir e }.set i (some (.saving record rest rc)))
  | exit (i : ι) {record : StateFile.AgentState} {rc : Except Err Unit}
      (hsaving : w.running i = some (.saving record [] (some rc))) :
    Step w ({ w with reported := w.report record rc }.set i none)
  | stop (i : ι) : Step w (w.set i none)
  | other (tx : Tx) (haccepts : w.network.Accepts tx) :
    Step w { w with network := w.network ++ [(none, tx)] }
  | cut {disk : PathDisk} (hcut : w.disk.Cut disk) :
    Step w { w with disk := disk, running := fun _ => none }

/-- A deploy has exited with 0, and nothing runs yet. -/
structure Deployed (d : DeployArgs) (deployTx : Tx) (w : AgentdWorld ι) : Prop where
  deployed : ∃ st rawHex woc network counterparty,
    cmdDeploy d = .ok (deployTx, st) ∧ st.tip.rawTxHex = some rawHex
      ∧ chainBroadcastSend P woc rawHex = .ok d.txid
      ∧ w.reported = [StateFile.deployRecord st d network counterparty]
      ∧ w.disk.read stateFile
        = some (StateFile.agentStateToJson (StateFile.deployRecord st d network counterparty))
  coherent : w.disk.Coherent
  kept : w.disk.kept stateFile = {w.disk.dir stateFile}
  settled : w.disk.SettledAt stateFile
  journal : ∀ ino, some ino ∈ w.disk.kept (journalPath stateFile override) →
    some ino ∉ w.disk.kept stateFile
  network : w.network.sent = []
  running : ∀ i, w.running i = none

/-- The network has taken from the invocations the transactions of one run of the agent, and at most
a revocation of its tip after them. What is left of the state file is one of the records of the run,
it is read as the state the run had there, and it is none before a reported one. -/
def OneRun (d : DeployArgs) (deployTx : Tx) (w : AgentdWorld ι) : Prop :=
  ∃ (es : List AgentdEvent) (st : AgentState) (this : Covenant.AgentTea) (revs : List Tx)
      (past : List StateFile.AgentState),
    AgentdRun P d deployTx es st this
    ∧ w.network.sent = es.map AgentdEvent.sent ++ revs
    ∧ revs.length ≤ 1 ∧ (∀ t ∈ revs, st.outpoint ∈ t.spends)
    ∧ past.map StateFile.AgentState.live = es.map AgentdEvent.st ++ [st] ++ revs.map (fun _ => st)
    ∧ ∀ o ∈ w.disk.mayHold stateFile, ∃ (k : ℕ) (record : StateFile.AgentState),
      past[k]? = some record
      ∧ o = some (StateFile.agentStateToJson record)
      ∧ (∃ read, StateFile.agentStateFromJson (StateFile.agentStateToJson record) = .ok read
        ∧ read.live = record.live)
      ∧ ∀ r ∈ w.reported, ∃ j : ℕ, j ≤ k ∧ past[j]? = some r

end AgentdWorld

end BonsaiChain
