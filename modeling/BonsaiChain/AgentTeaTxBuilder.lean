import BonsaiChain.AgentTea
import BonsaiChain.TxBuilders

/-!
# AgentTea builders

`txbuilders/agent_tea_tx_builder.c`: the unsigned transactions for the five methods of AgentTea.
-/

namespace BonsaiChain

open Lib

/-- `agent_tea_builder_opts_t`; a NULL `funding` is the empty list. -/
structure AgentTeaBuilderOpts where
  funding : List FundingUtxo
  changeHash160 : Option (Block 20)
  hasChange : Bool
  feeSats : UInt64
  hasFeeSats : Bool
  deriving DecidableEq

def recoverTag : Bytes := ascii "AGNT_RECOVER_V1"

section Change

def appendChangeFixedFee (b : Tx) (changeHash160 : Block 20) (totalIn feeSats : UInt64) :
    Except Err Tx := do
  let change : TxOut := ⟨totalIn, buildP2pkhScript changeHash160⟩
  let outSum := (b.outputs.map (·.satoshis)).sum
  if outSum > totalIn then throw .erange
  let available := totalIn - outSum
  if available < feeSats then throw .erange
  let changeAmount := available - feeSats
  if changeAmount ≥ 1 then
    return { b with outputs := b.outputs ++ [{ change with satoshis := changeAmount }] }
  else return b

/-- `append_change_opts`, which the last three builders write out. -/
def appendChangeOpts (P : Prims) (b : Tx) (opts : AgentTeaBuilderOpts) (totalIn : UInt64) :
    Except Err Tx :=
  match opts.hasChange, opts.changeHash160 with
  | true, some changeHash160 =>
    if opts.hasFeeSats then appendChangeFixedFee b changeHash160 totalIn opts.feeSats
    else appendChange P b changeHash160 totalIn bonsaiFeePerKb
  | _, _ => .ok b

end Change

/-- `append_state_output`. -/
def appendAgentTeaState (b : Tx) (c : AgentTea) (balance : UInt64) : Except Err Tx := do
  let script ← agentTeaLockingScript c false
  return txBuilderAddOutput b script balance

def buildAgentTeaAction (P : Prims) (c : AgentTea) (identity : ContractUtxo)
    (counterparty : Block 33) (amount : ℤ) (actionHash provenanceHash : Block 32) (now : ℤ)
    (opts : AgentTeaBuilderOpts) (b : Tx) : Except Err Tx := do
  let receiptHex ← agentTeaReceiptHash P c counterparty amount actionHash provenanceHash now
  let receiptHash ← hexDecodeFixed receiptHex 32
  let (b, fundingTotal) ← addInputs b identity 0 opts.funding
  let next := agentTeaApplyAction c amount now
  let b ← appendAgentTeaState b { c with state := next } identity.value
  let op ← buildOpreturnScript receiptHash
  let b := txBuilderAddOutput b op 0
  let b ← appendChangeOpts P b opts (fundingTotal + identity.value)
  return txBuilderSetLocktime b (u32OfInt now)

/-- The balance after a stake: the sum has to fit eight bytes. -/
def stakedBalance (value : UInt64) (addAmount : ℤ) : Except Err UInt64 := do
  let le ← bnToLeBytes (value.toNat + addAmount) 8
  return UInt64.ofNat (leNat le)

def buildAgentTeaStake (P : Prims) (c : AgentTea) (identity : ContractUtxo) (addAmount : ℤ)
    (opts : AgentTeaBuilderOpts) (b : Tx) : Except Err Tx := do
  let newBalance ← stakedBalance identity.value addAmount
  let (b, fundingTotal) ← addInputs b identity 0xffffffff opts.funding
  let b ← appendAgentTeaState b c newBalance
  appendChangeOpts P b opts (fundingTotal + identity.value)

def buildAgentTeaSlashValidator (P : Prims) (identity : ContractUtxo) (reporter : Block 33)
    (opts : AgentTeaBuilderOpts) (b : Tx) : Except Err Tx := do
  let bounty := identity.value / 2
  let burn := identity.value - bounty
  let (b, fundingTotal) ← addInputs b identity 0xffffffff opts.funding
  let b := appendP2pkhPubkey P b reporter.1 bounty
  let op ← buildOpreturnScript slashedMarker
  let b := txBuilderAddOutput b op burn
  appendChangeOpts P b opts (fundingTotal + identity.value)

/-- The recovery receipt preimage, at the counts before the recovery. -/
def agentTeaRecoverPreimage (c : AgentTea) (newAgent : Block 33) : Except Err Bytes := do
  if c.params.ricardianHash.length ≠ 32 then throw .einval
  let recoveryCount8 ← int2bytestringSized c.state.recoveryCount 8
  let txCount8 ← int2bytestringSized c.state.txCount 8
  return recoverTag ++ c.params.ricardianHash ++ newAgent.1 ++ recoveryCount8 ++ txCount8

def buildAgentTeaRecover (P : Prims) (c : AgentTea) (identity : ContractUtxo) (newAgent : Block 33)
    (opts : AgentTeaBuilderOpts) (b : Tx) : Except Err Tx := do
  let pre ← agentTeaRecoverPreimage c newAgent
  let receiptHash := P.sha256 pre
  let (b, fundingTotal) ← addInputs b identity 0xffffffff opts.funding
  let next := { c.state with recoveryCount := c.state.recoveryCount + 1 }
  -- only the state copy of the key is rotated
  let script ← agentTeaLockingScriptEx { c with state := next } false (some newAgent.1)
  let b := txBuilderAddOutput b script identity.value
  let b ← appendOpreturnHash b receiptHash
  appendChangeOpts P b opts (fundingTotal + identity.value)

def buildAgentTeaRevoke (P : Prims) (c : AgentTea) (identity : ContractUtxo)
    (opts : AgentTeaBuilderOpts) (b : Tx) : Except Err Tx := do
  if c.params.owner.length ≠ 33 then throw .einval
  let (b, fundingTotal) ← addInputs b identity 0xffffffff opts.funding
  let b := appendP2pkhPubkey P b c.params.owner identity.value
  appendChangeOpts P b opts (fundingTotal + identity.value)

end BonsaiChain
