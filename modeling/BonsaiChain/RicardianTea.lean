import BonsaiChain.ScriptCodec
import BonsaiChain.TxChange

/-!
# RicardianTea

The legal identity contract of `contracts/ricardian_tea.c`: genesis state, the state a spend leaves,
the locking script and the receipt.
-/

namespace BonsaiChain

structure RicardianTeaParams where
  owner : Bytes
  agent : Bytes
  ricardianHash : Bytes
  perTxLimit : ℤ
  dailyLimit : ℤ
  windowDuration : ℤ
  graduationThreshold : ℤ
  validatorThreshold : ℤ
  designatedValidatorPubkey : ℤ
  validatorRabinPubkey : ℤ
  maxSlashingTarget : ℤ
  minSlashConfirmations : ℤ
  initialSlashCheckpointHash : Bytes
  deriving DecidableEq

structure RicardianTeaState where
  txCount : ℤ
  spentInWindow : ℤ
  windowStart : ℤ
  tier : ℤ
  slashCheckpointHash : Bytes
  deriving DecidableEq, Repr

structure RicardianTea where
  artifact : ScryptArtifact
  params : RicardianTeaParams
  state : RicardianTeaState
  deriving DecidableEq

def ricardianTeaApplyAction (c : RicardianTea) (amount now : ℤ) : RicardianTeaState :=
  let s := c.state
  let p := c.params
  let delta := now - s.windowStart
  let windowStart := if delta ≥ p.windowDuration then now else s.windowStart
  let spent := if delta ≥ p.windowDuration then 0 else s.spentInWindow
  let txCount := s.txCount + 1
  { txCount := txCount
    spentInWindow := spent + amount
    windowStart := windowStart
    tier := if txCount ≥ p.graduationThreshold ∧ s.tier < 2 then 2 else s.tier
    slashCheckpointHash := s.slashCheckpointHash }

def ricardianTeaGenesisState (p : RicardianTeaParams) : RicardianTeaState :=
  ⟨0, 0, 0, 1, p.initialSlashCheckpointHash⟩

def ricardianTeaCtor (p : RicardianTeaParams) : List ScryptArg :=
  [.pubkey p.owner, .pubkey p.agent, .sha256 p.ricardianHash, .int p.perTxLimit, .int p.dailyLimit,
    .int p.windowDuration, .int p.graduationThreshold, .int p.validatorThreshold,
    .int p.designatedValidatorPubkey, .int p.validatorRabinPubkey, .int p.maxSlashingTarget,
    .int p.minSlashConfirmations, .sha256 p.initialSlashCheckpointHash]

def ricardianTeaStateValues (s : RicardianTeaState) : List ScryptArg :=
  [.int s.txCount, .int s.spentInWindow, .int s.windowStart, .int s.tier,
    .sha256 s.slashCheckpointHash]

def ricardianTeaLockingScript (c : RicardianTea) (isGenesis : Bool) : Except Err Bytes :=
  reconstructLockingScript c.artifact (ricardianTeaCtor c.params) (ricardianTeaStateValues c.state)
    isGenesis

def bonsaiRteaAttestTagHex : CString := ascii "525445415f4154544553545f5631"

def ricardianTeaAttestationMsg (ricardianHash : Block 32) (agent : Block 33)
    (validatorPubkey amount attestedLimit : ℤ) (receiptHash : Block 32) : Except Err Bytes := do
  let tag ← hexDecode bonsaiRteaAttestTagHex
  let amount8 ← int2bytestringSized amount 8
  let attestedLimit8 ← int2bytestringSized attestedLimit 8
  return tag ++ ricardianHash.1 ++ agent.1 ++ int2bytestringMinimal validatorPubkey ++ amount8
    ++ attestedLimit8 ++ receiptHash.1

def ricardianTeaReceiptPreimage (c : RicardianTea) (counterparty : Block 33) (amount : ℤ)
    (invoiceHash provenanceHash : Block 32) (now : ℤ) : Except Err Bytes := do
  if c.params.ricardianHash.length ≠ 32 ∨ c.params.agent.length ≠ 33 then throw .einval
  let amount8 ← int2bytestringSized amount 8
  let txCount8 ← int2bytestringSized c.state.txCount 8
  let now4 ← int2bytestringSized now 4
  return c.params.ricardianHash ++ c.params.agent ++ counterparty.1 ++ amount8 ++ invoiceHash.1
    ++ provenanceHash.1 ++ txCount8 ++ now4

def ricardianTeaReceiptHash (P : Prims) (c : RicardianTea) (counterparty : Block 33) (amount : ℤ)
    (invoiceHash provenanceHash : Block 32) (now : ℤ) : Except Err CString := do
  let pre ← ricardianTeaReceiptPreimage c counterparty amount invoiceHash provenanceHash now
  return hexEncode (P.sha256 pre).1

end BonsaiChain
