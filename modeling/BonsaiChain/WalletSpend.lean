import BonsaiChain.ContractSign
import BonsaiChain.Ecdsa
import BonsaiChain.TxBuilders

/-!
# Wallet spends

`wallet/spend.c`: the funding outputs are taken in order until a size estimated by counts is paid
for, the fee is settled on the transaction with placeholder scriptSigs, and every input is signed.
A failure carries its code and the message of the error context. Sizes are natural numbers.
-/

namespace BonsaiChain

/-- `spend_recipient_t`. -/
structure SpendRecipient where
  address : CString
  satoshis : UInt64
  deriving DecidableEq, Repr

/-- `spend_plan_t`. -/
structure SpendPlan where
  recipients : List SpendRecipient
  opReturnData : Option Bytes
  changeAddress : Option CString
  feePerKb : UInt64
  sendAll : Bool
  deriving DecidableEq, Repr

/-- `spend_result_t`. -/
structure SpendResult where
  rawHex : CString
  txid : CString
  totalIn : UInt64
  totalOut : UInt64
  fee : UInt64
  change : UInt64
  numInputs : ℕ
  sizeBytes : ℕ
  deriving DecidableEq, Repr

namespace SpendPlan

/-- The data of the OP_RETURN output, if the plan has one. -/
def opReturn (plan : SpendPlan) : Option Bytes :=
  plan.opReturnData.filter fun data => 0 < data.length

def rate (plan : SpendPlan) : UInt64 := if plan.feePerKb = 0 then bonsaiFeePerKb else plan.feePerKb

def changeAddr (plan : SpendPlan) (fundingAddress : CString) : CString :=
  plan.changeAddress.getD fundingAddress

/-- `n_out_est`. -/
def nOutEst (plan : SpendPlan) : ℕ :=
  (if plan.sendAll then 1 else plan.recipients.length) + (if plan.opReturn.isSome then 1 else 0)
    + if plan.sendAll then 0 else 1

end SpendPlan

namespace WalletSpend

section Failures

variable {α : Type}

/-- `bns_fail`. -/
def bnsFail (e : Err) (message : String) : Except (Err × CString) α := .error (e, ascii message)

/-- The result, or its error with a message. -/
def orFail (message : String) : Except Err α → Except (Err × CString) α
  | .error e => bnsFail e message
  | .ok a => .ok a

/-- The result, or another error with a message. -/
def orFailWith (e : Err) (message : String) : Except Err α → Except (Err × CString) α
  | .error _ => bnsFail e message
  | .ok a => .ok a

end Failures

section Money

def walletDustThreshold : UInt64 := 546

def addMoneyU64 (total v : UInt64) : Except Err UInt64 :=
  if total > bonsaiMaxMoney ∨ v > bonsaiMaxMoney ∨ v > bonsaiMaxMoney - total then .error .erange
  else .ok (total + v)

def addMoneyI64 (total : UInt64) (v : ℤ) : Except Err UInt64 :=
  if v < 0 then .error .erange else addMoneyU64 total (u64OfInt v)

/-- `money_sum2`. -/
def moneySum2 (a b : UInt64) : Except Err UInt64 := addMoneyU64 a b

/-- `fee_for`: the least fee of `sendtime_fee_window`. -/
def feeFor (P : Prims) (size : ℕ) (rate : UInt64) : UInt64 := P.feeForSize size rate

/-- The signed size by counts. -/
def estSizeByCounts (nIn nOut opreturnLen : ℕ) : ℕ :=
  10 + 9 + nIn * 148 + nOut * 34 + if opreturnLen ≠ 0 then 8 + 3 + opreturnLen else 0

/-- The longest scriptSig a compressed key can give. -/
def walletP2pkhScriptsigMax : ℕ := 108

end Money

section Plan

def checkPlan (plan : SpendPlan) : Except (Err × CString) Unit :=
  if plan.sendAll then
    if plan.recipients.length ≠ 1 then bnsFail .einval "send_all requires exactly one recipient"
    else .ok ()
  else if plan.recipients.length = 0 ∧ plan.opReturn = none then
    bnsFail .einval "no recipients and no OP_RETURN data"
  else .ok ()

/-- The sum of the amounts paid, behind `total`. -/
def recipientTotal (total : UInt64) : List SpendRecipient → Except (Err × CString) UInt64
  | [] => .ok total
  | r :: rs =>
    if r.satoshis = 0 then bnsFail .einval "recipient amount is zero"
    else if r.satoshis < walletDustThreshold then bnsFail .einval "recipient amount below dust"
    else do
      let total ← orFailWith .erange "recipient total out of range" (addMoneyU64 total r.satoshis)
      recipientTotal total rs

/-- `total_recip`. -/
def planTotal (plan : SpendPlan) : Except (Err × CString) UInt64 :=
  if plan.sendAll then .ok 0 else recipientTotal 0 plan.recipients

end Plan

section Select

/-- The funding value of all outputs, behind `running`. -/
def sumFunding (running : UInt64) : List FundingUtxo → Except (Err × CString) UInt64
  | [] => .ok running
  | u :: us => do
    let running ← orFailWith .erange "funding value out of range" (addMoneyI64 running u.satoshis)
    sumFunding running us

/-- The selection behind `selCount` outputs worth `running`: how many are taken in all and what they
are worth. -/
def selectFunding (P : Prims) (rate totalRecip : UInt64) (nOutEst opreturnLen : ℕ)
    (selCount : ℕ) (running : UInt64) : List FundingUtxo → Except (Err × CString) (ℕ × UInt64)
  | [] => bnsFail .erange "insufficient funds"
  | u :: us => do
    let running ← orFailWith .erange "funding value out of range" (addMoneyI64 running u.satoshis)
    let need ← orFailWith .erange "spend total out of range"
      (moneySum2 totalRecip (feeFor P (estSizeByCounts (selCount + 1) nOutEst opreturnLen) rate))
    if running ≥ need then return (selCount + 1, running)
    else selectFunding P rate totalRecip nOutEst opreturnLen (selCount + 1) running us

def selectUtxos (P : Prims) (plan : SpendPlan) (totalRecip : UInt64) (opreturnLen : ℕ)
    (utxos : List FundingUtxo) : Except (Err × CString) (ℕ × UInt64) :=
  if plan.sendAll then do
    let running ← sumFunding 0 utxos
    if utxos.length = 0 then bnsFail .erange "no UTXOs to sweep"
    else return (utxos.length, running)
  else selectFunding P plan.rate totalRecip plan.nOutEst opreturnLen 0 0 utxos

end Select

section Build

def addSelected (b : Tx) : List FundingUtxo → Except (Err × CString) Tx
  | [] => .ok b
  | u :: us => do
    let b ← orFail "add input failed" (txBuilderAddInput b u.txId u.outputIndex [] 0xffffffff)
    addSelected b us

def addP2pkhOutput (P : Prims) (net : BsvNetwork) (badAddress : String) (b : Tx)
    (address : CString) (satoshis : UInt64) : Except (Err × CString) Tx := do
  let h ← orFail badAddress (addrToH160 P net address)
  return txBuilderAddOutput b (buildP2pkhScript h) satoshis

/-- The outputs to the recipients; a sweep's amount is set once the fee is known. -/
def addRecipients (P : Prims) (net : BsvNetwork) (sendAll : Bool) (b : Tx) :
    List SpendRecipient → Except (Err × CString) Tx
  | [] => .ok b
  | r :: rs => do
    let b ← addP2pkhOutput P net "bad recipient address" b r.address
      (if sendAll then 0 else r.satoshis)
    addRecipients P net sendAll b rs

def addOpReturn (b : Tx) : Option Bytes → Tx
  | none => b
  | some spk => txBuilderAddOutput b spk 0

/-- The unsigned transaction; the change output is the last one. -/
def buildUnsigned (P : Prims) (net : BsvNetwork) (fundingAddress : CString) (plan : SpendPlan)
    (opretSpk : Option Bytes) (utxos : List FundingUtxo) : Except (Err × CString) Tx := do
  let b ← addSelected txBuilderInit utxos
  let b ← addRecipients P net plan.sendAll b plan.recipients
  let b := addOpReturn b opretSpk
  if plan.sendAll then return b
  else addP2pkhOutput P net "bad change address" b (plan.changeAddr fundingAddress) 0

/-- The transaction with placeholder scriptSigs of the longest length. -/
def installPlaceholders (b : Tx) : Tx :=
  { b with inputs := b.inputs.map fun i =>
      { i with scriptSig := List.replicate walletP2pkhScriptsigMax 0 } }

end Build

section Settle

/-- The transaction with its amounts, and what the result reports of it. -/
structure Settled where
  tx : Tx
  totalOut : UInt64
  fee : UInt64
  change : UInt64
  sizeBytes : ℕ

def setSatoshis (b : Tx) (i : ℕ) (satoshis : UInt64) : Tx :=
  { b with outputs := b.outputs.modify i fun o => { o with satoshis } }

def settleSweep (b : Tx) (runningIn fee : UInt64) (sizeBytes : ℕ) :
    Except (Err × CString) Settled :=
  if runningIn ≤ fee ∨ runningIn - fee < walletDustThreshold then
    bnsFail .erange "sweep amount below dust after fee"
  else .ok ⟨setSatoshis b 0 (runningIn - fee), runningIn - fee, fee, 0, sizeBytes⟩

/-- A change below dust is dropped with its output and goes to the miner. -/
def settleChange (b : Tx) (runningIn totalRecip fee : UInt64) (sizeBytes : ℕ) :
    Except (Err × CString) Settled := do
  let need ← orFailWith .erange "spend total out of range" (moneySum2 totalRecip fee)
  if runningIn < need then bnsFail .erange "insufficient funds for fee"
  else
    let change := runningIn - need
    if change < walletDustThreshold then
      let tx := { b with outputs := b.outputs.dropLast }
      return ⟨tx, totalRecip, runningIn - totalRecip, 0, estimateSize tx⟩
    else
      return ⟨setSatoshis b (b.outputs.length - 1) change, runningIn - fee, fee, change, sizeBytes⟩

def settle (P : Prims) (plan : SpendPlan) (b : Tx) (runningIn totalRecip : UInt64) :
    Except (Err × CString) Settled :=
  let sizeBytes := estimateSize b
  let fee := feeFor P sizeBytes plan.rate
  if fee > bonsaiMaxMoney then bnsFail .erange "fee out of range"
  else if plan.sendAll then settleSweep b runningIn fee sizeBytes
  else settleChange b runningIn totalRecip fee sizeBytes

end Settle

section Sign

/-- The signature with its hash type, then the public key. -/
def p2pkhScriptSig (der : Bytes) (pub : Block 33) : Bytes :=
  UInt8.ofNat (der.length + 1) :: der ++ [sighashAllForkid] ++ 33 :: pub.1

def signP2pkhInput (P : Prims) (key : EcdsaKey) (pub : Block 33) (scriptCode : Bytes) (tx : Tx)
    (k : ℕ)
    (satoshis : ℤ) : Except (Err × CString) Tx := do
  let digest ← orFail "sighash failed"
    (bip143Sighash P tx k scriptCode (u64OfInt satoshis) sighashAllForkid)
  let der ← orFail "signing failed" (key.signLowS digest)
  return { tx with inputs := tx.inputs.modify k fun i =>
    { i with scriptSig := p2pkhScriptSig der pub } }

/-- The inputs from `k` on are signed, over the outputs they spend. -/
def signSelected (P : Prims) (key : EcdsaKey) (pub : Block 33) (scriptCode : Bytes) (tx : Tx)
    (k : ℕ) : List FundingUtxo → Except (Err × CString) Tx
  | [] => .ok tx
  | u :: us => do
    let tx ← signP2pkhInput P key pub scriptCode tx k u.satoshis
    signSelected P key pub scriptCode tx (k + 1) us

end Sign

def walletBuildSignedSpend (P : Prims) (net : BsvNetwork) (key : EcdsaKey)
    (fundingAddress : CString) (utxos : List FundingUtxo) (plan : SpendPlan) :
    Except (Err × CString) SpendResult := do
  checkPlan plan
  let pub ← orFail "pubkey derive failed" key.pubkey
  let funderSpk := buildP2pkhScript (P.hash160 pub.1)
  let totalRecip ← planTotal plan
  let opretSpk ← orFail "OP_RETURN build failed" (plan.opReturn.mapM buildOpreturnScript)
  let (numInputs, totalIn) ← selectUtxos P plan totalRecip (opretSpk.elim 0 List.length) utxos
  let selected := utxos.take numInputs
  let b ← buildUnsigned P net fundingAddress plan opretSpk selected
  let settled ← settle P plan (installPlaceholders b) totalIn totalRecip
  let tx ← signSelected P key pub funderSpk settled.tx 0 selected
  let raw ← orFail "serialize failed" (txSerialize tx)
  let txid ← orFail "txid failed" (txId (fun bs => (sha256d P bs).1) tx)
  return ⟨hexEncode raw, txid, totalIn, settled.totalOut, settled.fee, settled.change, numInputs,
    settled.sizeBytes⟩

end WalletSpend

end BonsaiChain
