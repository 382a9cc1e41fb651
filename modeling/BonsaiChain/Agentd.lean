import BonsaiChain.AgentTeaTxBuilder
import BonsaiChain.Bignum

/-!
# The resumable agent

`scripts/agentd_lib.c`: the live part of `deploy`, `action` and `recover`, which carry an AgentTea
identity across processes. Only the persisted `AgentState` survives a step; the next one rebuilds
the contract from it and from the raw transaction of the tip. Key files, the funding service,
signing, the liveness check and the broadcast answer through the arguments of a step; a step that
fails prints its message and writes no state.
-/

namespace BonsaiChain

open Lib

section AgentState

structure AgentParams where
  perTxLimit : ℤ
  dailyLimit : ℤ
  windowDuration : ℤ
  graduationThreshold : ℤ
  validatorThreshold : ℤ
  recoveryThreshold : ℤ
  deriving DecidableEq, Repr

def agentParamsDefaults : AgentParams := ⟨100000, 1000000, 86400, 10000, 50000, 2⟩

/-- Decimal strings. -/
structure AgentRabinPub where
  guardian : Option CString
  ownValidator : Option CString
  recovery : List CString
  deriving DecidableEq, Repr

structure AgentTip where
  txid : Option CString
  vout : UInt32
  rawTxHex : Option CString
  deriving DecidableEq, Repr

/-- `agent_runtime_state_t`; the counters are `int64_t`. -/
structure AgentRuntimeState where
  txCount : ℤ
  spentInWindow : ℤ
  windowStart : ℤ
  tier : ℤ
  recoveryCount : ℤ
  deriving DecidableEq, Repr

structure AgentState where
  ricardianHash : Option CString
  owner : Option CString
  agentPubKey : Option CString
  params : AgentParams
  rabinPub : AgentRabinPub
  tip : AgentTip
  state : AgentRuntimeState
  deriving DecidableEq, Repr

end AgentState

section Helpers

/-- A step ends with the message where a call fails. -/
def orFail {ε α : Type} (x : Except ε α) (msg : String) : Except CString α :=
  x.mapError fun _ => ascii msg

def failIf (p : Prop) [Decidable p] (msg : String) : Except CString Unit :=
  if p then .error (ascii msg) else .ok ()

/-- A persisted hex field of a fixed size. -/
def decodeField (hex : Option CString) (n : ℕ) : Except Err Bytes := do
  match hex with
  | none => .error .einval
  | some hex =>
    let bs ← hexDecode hex
    if bs.length = n then .ok bs else .error .einval

/-- A persisted decimal field. -/
def decodeDec (dec : Option CString) : Except Err ℤ :=
  match dec with
  | none => .error .einval
  | some dec => bnParseDec dec

def fundingUtxosTotal : List FundingUtxo → UInt64 → Except Err UInt64
  | [], total => .ok total
  | u :: us, total =>
    if u.satoshis < 0 ∨ u.satoshis > bonsaiMaxMoney.toNat then .error .erange
    else if u64OfInt u.satoshis > bonsaiMaxMoney - total then .error .erange
    else fundingUtxosTotal us (total + u64OfInt u.satoshis)

/-- The signature scripts set on the inputs, in order. -/
def signInputs : List TxIn → List Bytes → List TxIn
  | i :: is, s :: ss => { i with scriptSig := s } :: signInputs is ss
  | is, _ => is

/-- `tx_builder_build_hex` after signing. -/
def signAndBuild (b : Tx) (sigs : List Bytes) : Except Err CString := do
  let raw ← txSerialize { b with inputs := signInputs b.inputs sigs }
  return hexEncode raw

end Helpers

section Deploy

def agentdIdentitySats : UInt64 := 1

/-- What a deploy takes from its environment: keys, charter hash and artifact, the fresh guardian
moduli, the funding, the recommended fee, the signatures and the broadcast answer. -/
structure DeployArgs where
  artifact : ScryptArtifact
  elderPub : Block 33
  agentPub : Block 33
  ricardianHash : CString
  rabinPubkeys : Vector ℕ 5
  funding : List FundingUtxo
  change20 : Block 20
  recommended : ℤ
  sigs : List Bytes
  txid : CString

def deployParams (a : DeployArgs) (ricardianHash : Bytes) : AgentTeaParams where
  owner := a.elderPub.1
  agent := a.agentPub.1
  ricardianHash := ricardianHash
  perTxLimit := 100000
  dailyLimit := 1000000
  windowDuration := 86400
  graduationThreshold := 10000
  validatorThreshold := 50000
  designatedValidatorPubkey := a.rabinPubkeys[0]
  validatorRabinPubkey := a.rabinPubkeys[1]
  recoveryKeys := #v[(a.rabinPubkeys[2] : ℤ), (a.rabinPubkeys[3] : ℤ), (a.rabinPubkeys[4] : ℤ)]
  recoveryThreshold := 2

def deployRabinPub (a : DeployArgs) : AgentRabinPub where
  guardian := some (bnToDec a.rabinPubkeys[0])
  ownValidator := some (bnToDec a.rabinPubkeys[1])
  recovery := [bnToDec a.rabinPubkeys[2], bnToDec a.rabinPubkeys[3], bnToDec a.rabinPubkeys[4]]

/-- The transaction a deploy lays out: the funding inputs, the identity output and the change. -/
def deployTx (a : DeployArgs) (genesisScript : Bytes) : Except CString Tx := do
  failIf (a.funding = []) "FUND_DEPLOY_KEY_FILE is required to fund the deploy"
  let (b, _) ← orFail (addFunding txBuilderInit a.funding 0) "cannot add funding input"
  let totalIn ← orFail (fundingUtxosTotal a.funding 0)
    "funding total out of range (overflow / exceeds MAX_MONEY)"
  let b := txBuilderAddOutput b genesisScript agentdIdentitySats
  failIf (totalIn < u64OfInt (agentdIdentitySats.toNat + a.recommended))
    "insufficient funding for deploy"
  let changeSats := totalIn - agentdIdentitySats - u64OfInt a.recommended
  if changeSats ≥ 1 then return txBuilderAddOutput b (buildP2pkhScript a.change20) changeSats
  else return b

def cmdDeploy (a : DeployArgs) : Except CString (Tx × AgentState) := do
  let ricardianHash ← orFail (decodeField (some a.ricardianHash) 32) "cannot build genesis params"
  let inst : AgentTea := ⟨a.artifact, deployParams a ricardianHash, agentTeaGenesisState⟩
  let genesisScript ← orFail (agentTeaLockingScript inst true)
    "genesis locking script reconstruction failed"
  let b ← deployTx a genesisScript
  let rawHex ← orFail (signAndBuild b a.sigs) "deploy signing failed"
  return (b,
    { ricardianHash := some a.ricardianHash
      owner := some (hexEncode a.elderPub.1)
      agentPubKey := some (hexEncode a.agentPub.1)
      params := agentParamsDefaults
      rabinPub := deployRabinPub a
      tip := ⟨some a.txid, 0, some rawHex⟩
      state := ⟨0, 0, 0, 1, 0⟩ })

end Deploy

section Steps

/-- The params of `instance_at_tip`, from the persisted state and the agent key of the tip. -/
def paramsAtTip (st : AgentState) (decodedAgent : Bytes) : Except CString AgentTeaParams := do
  let owner ← orFail (decodeField st.owner 33) "STATE_FILE owner pubkey is invalid"
  let agent ← orFail (if decodedAgent.length = 33 then .ok decodedAgent
    else decodeField st.agentPubKey 33) "STATE_FILE agent pubkey is invalid"
  let ricardianHash ← orFail (decodeField st.ricardianHash 32) "STATE_FILE ricardianHash is invalid"
  let guardian ← orFail (decodeDec st.rabinPub.guardian) "STATE_FILE rabinPub.guardian is invalid"
  let ownValidator ← orFail (decodeDec st.rabinPub.ownValidator)
    "STATE_FILE rabinPub.ownValidator is invalid"
  let r0 ← orFail (decodeDec st.rabinPub.recovery[0]?) "STATE_FILE rabinPub.recovery is invalid"
  let r1 ← orFail (decodeDec st.rabinPub.recovery[1]?) "STATE_FILE rabinPub.recovery is invalid"
  let r2 ← orFail (decodeDec st.rabinPub.recovery[2]?) "STATE_FILE rabinPub.recovery is invalid"
  return ⟨owner, agent, ricardianHash, st.params.perTxLimit, st.params.dailyLimit,
    st.params.windowDuration, st.params.graduationThreshold, st.params.validatorThreshold, guardian,
    ownValidator, #v[r0, r1, r2], st.params.recoveryThreshold⟩

/-- The contract at the tip, with the locking script and value of its output. -/
def instanceAtTip (st : AgentState) (artifact : ScryptArtifact) :
    Except CString (AgentTea × Bytes × UInt64) :=
  match st.tip.rawTxHex, st.ricardianHash with
  | some rawTxHex, some _ => do
    let tip ← orFail (txDeserialize rawTxHex) "cannot parse tip raw tx"
    match tip.outputs[st.tip.vout.toNat]? with
    | none => .error (ascii "tip vout out of range")
    | some idout =>
      let (state, decodedAgent) ← orFail (agentTeaFromTx idout.script)
        "cannot decode on-chain state from tip"
      let params ← paramsAtTip st decodedAgent
      return (⟨artifact, params, state⟩, idout.script, idout.satoshis)
  | _, _ => .error (ascii "STATE_FILE tip is missing the raw tx")

/-- What a step takes from its environment besides its own arguments. -/
structure StepArgs where
  funding : List FundingUtxo
  change20 : Block 20
  recommended : ℤ
  sigs : List Bytes
  txid : CString

def StepArgs.opts (a : StepArgs) : AgentTeaBuilderOpts :=
  ⟨a.funding, some a.change20, true, u64OfInt a.recommended, true⟩

/-- The spent identity output. -/
def identityAtTip (st : AgentState) (value : UInt64) : ContractUtxo :=
  ⟨st.tip.txid.getD [], st.tip.vout, value⟩

/-- The tip a step persists. -/
def nextTip (a : StepArgs) (rawHex : CString) : AgentTip := ⟨some a.txid, 0, some rawHex⟩

/-- The counters `action` persists. -/
def advanceState (p : AgentParams) (s : AgentRuntimeState) (amount now : ℤ) : AgentRuntimeState :=
  let elapsed := now - s.windowStart ≥ p.windowDuration
  let txCount := s.txCount + 1
  { txCount := txCount
    spentInWindow := (if elapsed then 0 else s.spentInWindow) + amount
    windowStart := if elapsed then now else s.windowStart
    tier := if txCount ≥ p.graduationThreshold ∧ s.tier < 2 then 2 else s.tier
    recoveryCount := s.recoveryCount }

/-- `action`; `amount` is a parsed `AMOUNT`, which is not negative. -/
def cmdAction (P : Prims) (artifact : ScryptArtifact) (st : AgentState) (counterparty : Block 33)
    (amount : ℕ) (actionHash provenanceHash : Block 32) (now : ℤ) (a : StepArgs) :
    Except CString (Tx × AgentState) := do
  let (inst, _, identityValue) ← instanceAtTip st artifact
  failIf (a.funding = []) "FUND_ACTION_KEY_FILE is required to fund the action fee"
  failIf (now ≤ 500000000) "computed locktime is not a sane unix timestamp"
  let b ← orFail (buildAgentTeaAction P inst (identityAtTip st identityValue) counterparty amount
    actionHash provenanceHash now a.opts txBuilderInit) "executeAction build failed"
  let rawHex ← orFail (signAndBuild b a.sigs) "executeAction signing failed"
  return (b,
    { st with
      state := advanceState st.params st.state amount now
      tip := nextTip a rawHex })

/-- `recover`; `used` is the number of guardian signatures. -/
def cmdRecover (P : Prims) (artifact : ScryptArtifact) (st : AgentState) (newAgent : Block 33)
    (used : ℕ) (a : StepArgs) : Except CString (Tx × AgentState) := do
  let (inst, _, identityValue) ← instanceAtTip st artifact
  failIf (inst.params.ricardianHash.length ≠ 32) "instance ricardianHash is not 32 bytes"
  let _ ← orFail (agentTeaRecoveryMsg inst.params.ricardianHash newAgent inst.state.recoveryCount)
    "cannot build recovery message"
  if (used : ℤ) < st.params.recoveryThreshold then
    throw (ascii "only " ++ decimal used ++ ascii " guardian sig(s); need recoveryThreshold="
      ++ decimalInt st.params.recoveryThreshold)
  failIf (a.funding = [])
    "FUND_RECOVER_KEY_FILE/FUND_ACTION_KEY_FILE is required to fund the recover fee"
  let b ← orFail (buildAgentTeaRecover P inst (identityAtTip st identityValue) newAgent a.opts
    txBuilderInit) "recover build failed"
  let rawHex ← orFail (signAndBuild b a.sigs) "recover signing failed"
  return (b,
    { st with
      agentPubKey := some (hexEncode newAgent.1)
      state := { st.state with recoveryCount := st.state.recoveryCount + 1 }
      tip := nextTip a rawHex })

inductive AgentdOp where
  | action (counterparty : Block 33) (amount : ℕ) (actionHash provenanceHash : Block 32) (now : ℤ)
      (a : StepArgs)
  | recover (newAgent : Block 33) (used : ℕ) (a : StepArgs)

/-- One step: the transaction it builds and the state it persists. -/
def agentdStep (P : Prims) (artifact : ScryptArtifact) (st : AgentState) :
    AgentdOp → Except CString (Tx × AgentState)
  | .action counterparty amount actionHash provenanceHash now a =>
    cmdAction P artifact st counterparty amount actionHash provenanceHash now a
  | .recover newAgent used a => cmdRecover P artifact st newAgent used a

end Steps

end BonsaiChain
