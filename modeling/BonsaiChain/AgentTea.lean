import BonsaiChain.Lib.Parser
import BonsaiChain.ScriptCodec
import BonsaiChain.TxChange

/-!
# AgentTea

The agent identity contract of `contracts_next/agent_tea.c`: genesis state, the state an action
leaves, the locking script, the decoder of the state section and the action receipt. The agent key
stands twice in a locking script, frozen in the code part and as the first state value.
-/

namespace BonsaiChain

open Lib

structure AgentTeaParams where
  owner : Bytes
  agent : Bytes
  ricardianHash : Bytes
  perTxLimit : ℤ
  dailyLimit : ℤ
  windowDuration : ℤ
  graduationThreshold : ℤ
  validatorThreshold : ℤ
  designatedValidatorPubkey : ℤ
  validatorRabinPubkey : ℤ
  recoveryKeys : Vector ℤ 3
  recoveryThreshold : ℤ
  deriving DecidableEq

structure AgentTeaState where
  txCount : ℤ
  spentInWindow : ℤ
  windowStart : ℤ
  tier : ℤ
  recoveryCount : ℤ
  deriving DecidableEq, Repr

structure AgentTea where
  artifact : ScryptArtifact
  params : AgentTeaParams
  state : AgentTeaState
  deriving DecidableEq

def agentTeaGenesisState : AgentTeaState := ⟨0, 0, 0, 1, 0⟩

def agentTeaApplyAction (c : AgentTea) (amount now : ℤ) : AgentTeaState :=
  let s := c.state
  let p := c.params
  let delta := now - s.windowStart
  let windowStart := if delta ≥ p.windowDuration then now else s.windowStart
  let spent := if delta ≥ p.windowDuration then 0 else s.spentInWindow
  let txCount := s.txCount + 1
  { txCount := txCount
    spentInWindow := spent + amount
    windowStart := windowStart
    tier := if txCount ≥ p.graduationThreshold ∧ s.tier < 2 then 2 else s.tier
    recoveryCount := s.recoveryCount }

section LockingScript

def agentTeaCtor (p : AgentTeaParams) : List ScryptArg :=
  [.pubkey p.owner, .pubkey p.agent, .sha256 p.ricardianHash, .int p.perTxLimit, .int p.dailyLimit,
    .int p.windowDuration, .int p.graduationThreshold, .int p.validatorThreshold,
    .rabinPubkey p.designatedValidatorPubkey, .rabinPubkey p.validatorRabinPubkey,
    .fixedArray (p.recoveryKeys.toList.map .rabinPubkey), .int p.recoveryThreshold]

def agentTeaStateValues (agent : Bytes) (s : AgentTeaState) : List ScryptArg :=
  [.pubkey agent, .int s.txCount, .int s.spentInWindow, .int s.windowStart, .int s.tier,
    .int s.recoveryCount]

def agentTeaLockingScriptEx (c : AgentTea) (isGenesis : Bool) (stateAgent : Option Bytes) :
    Except Err Bytes :=
  reconstructLockingScript c.artifact (agentTeaCtor c.params)
    (agentTeaStateValues (stateAgent.getD c.params.agent) c.state) isGenesis

def agentTeaLockingScript (c : AgentTea) (isGenesis : Bool) : Except Err Bytes :=
  agentTeaLockingScriptEx c isGenesis none

end LockingScript

section FromTx

/-- A pushed element whose length stands in the next `w` bytes. -/
def readPushSized (w : ℕ) : Parser Err UInt8 Bytes :=
  (Parser.take .eparse w).andThen fun len => Parser.take .eparse (leNat len)

def readPush : Parser Err UInt8 Bytes
  | [] => .error .eparse
  | op :: rest =>
    if op ≤ 0x4b then Parser.take .eparse op.toNat rest
    else if op = 0x4c then readPushSized 1 rest
    else if op = 0x4d then readPushSized 2 rest
    else if op = 0x4e then readPushSized 4 rest
    else .error .eparse

/-- `read_push` followed by `decode_state_int`. -/
def readStateInt : Parser Err UInt8 ℤ := readPush.andThen fun body => Parser.done (bnParseLe body)

/-- The state body behind the genesis flag. -/
def readAgentTeaState : Parser Err UInt8 (AgentTeaState × Bytes) :=
  readPush.andThen fun agent =>
  if agent.length ≠ 33 then Parser.fail .eparse
  else
    readStateInt.andThen fun txCount =>
    readStateInt.andThen fun spentInWindow =>
    readStateInt.andThen fun windowStart =>
    readStateInt.andThen fun tier =>
    readStateInt.andThen fun recoveryCount =>
    Parser.done (⟨txCount, spentInWindow, windowStart, tier, recoveryCount⟩, agent)

def agentTeaFromTx (lockingScript : Bytes) : Except Err (AgentTeaState × Bytes) :=
  let len := lockingScript.length
  if len < 5 then .error .eparse
  else
    let stateLen := stateBodyLen lockingScript
    if stateLen < 1 ∨ stateLen + 5 > len then .error .eparse
    else
      let body := (lockingScript.drop (len - 5 - stateLen)).take stateLen
      readAgentTeaState.whole .eparse (body.drop 1)

end FromTx

section Receipt

/-- `AGNT_ATTEST_TAG`. -/
def agntAttestTag : Bytes := ascii "AGNT_ATTEST_V1"

/-- The message a validator signs. Its key is the one field that has no fixed width. -/
def agentTeaAttestationMsg (ricardianHash : Block 32) (agent : Block 33)
    (validatorPubkey amount attestedLimit : ℤ) (receiptHash : Block 32) : Except Err Bytes := do
  let amount8 ← int2bytestringSized amount 8
  let attestedLimit8 ← int2bytestringSized attestedLimit 8
  return agntAttestTag ++ ricardianHash.1 ++ agent.1 ++ int2bytestringMinimal validatorPubkey
    ++ amount8 ++ attestedLimit8 ++ receiptHash.1

/-- `AGNT_RECOVER_TAG`. -/
def agntRecoverTag : Bytes := ascii "AGNT_RECOVER_V1"

/-- The message the guardians of a recovery sign. -/
def agentTeaRecoveryMsg (ricardianHash : Bytes) (newAgent : Block 33) (recoveryCount : ℤ) :
    Except Err Bytes := do
  let recoveryCount8 ← int2bytestringSized recoveryCount 8
  return agntRecoverTag ++ ricardianHash ++ newAgent.1 ++ recoveryCount8

def agentTeaReceiptPreimage (c : AgentTea) (counterparty : Block 33) (amount : ℤ)
    (actionHash provenanceHash : Block 32) (now : ℤ) : Except Err Bytes := do
  if c.params.ricardianHash.length ≠ 32 ∨ c.params.agent.length ≠ 33 then throw .einval
  let amount8 ← int2bytestringSized amount 8
  let txCount8 ← int2bytestringSized c.state.txCount 8
  let now4 ← int2bytestringSized now 4
  return c.params.ricardianHash ++ c.params.agent ++ counterparty.1 ++ amount8 ++ actionHash.1
    ++ provenanceHash.1 ++ txCount8 ++ now4

def agentTeaReceiptHash (P : Prims) (c : AgentTea) (counterparty : Block 33) (amount : ℤ)
    (actionHash provenanceHash : Block 32) (now : ℤ) : Except Err CString := do
  let pre ← agentTeaReceiptPreimage c counterparty amount actionHash provenanceHash now
  return hexEncode (P.sha256 pre).1

end Receipt

end BonsaiChain
