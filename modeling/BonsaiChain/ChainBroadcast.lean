import BonsaiChain.Base58
import BonsaiChain.Lib.Binary64
import BonsaiChain.TxBuilders
import Mathlib.Data.List.Sort

/-!
# Funding and broadcasting

`scripts/chain_broadcast.c` over `chainSources/utxo_select.c`, `chainSources/bsv_fees.c` and
`chainSources/woc_client.c`: which outputs of an address pay for a transaction, which fee it offers,
and its way to the network. The client of the chain service is a record of answers.
-/

namespace BonsaiChain

open Lib

section Select

/-- `woc_utxo_t`; value and height are an `int64_t`. -/
structure WocUtxo where
  txHash : CString
  txPos : UInt32
  value : ℤ
  height : ℤ
  deriving DecidableEq, Repr

/-- `BONSAI_MAX_MONEY` as an `int64_t`. -/
def maxMoneySats : ℤ := 2100000000000000

/-- `cmp_funding` is not positive: confirmed outputs come first, then the larger ones. -/
def comesBefore (a b : WocUtxo) : Bool :=
  if decide (0 < a.height) ≠ decide (0 < b.height) then 0 < a.height else b.value ≤ a.value

/-- `rank_funding_utxos` with the default options. The sort is stable. -/
def rankFundingUtxos (utxos : List WocUtxo) : List FundingUtxo :=
  ((utxos.filter fun u => u.value ≤ maxMoneySats ∧ 0 ≤ u.value).insertionSort (comesBefore · ·)).map
    fun u => ⟨u.txHash, u.txPos, u.value⟩

/-- The first outputs that are worth `needSats`, behind `total` satoshis. -/
def takeFunding (needSats : ℤ) (total : ℤ) : List FundingUtxo → Except Err (List FundingUtxo)
  | [] => .error .enotfound
  | u :: us =>
    if u.satoshis < 0 ∨ u.satoshis > maxMoneySats ∨ u.satoshis > maxMoneySats - total then
      .error .erange
    else if total + u.satoshis ≥ needSats then .ok [u]
    else do
      let taken ← takeFunding needSats (total + u.satoshis) us
      return u :: taken

end Select

section Fees

/-- `fee_window_t` of `bsv_fees.h`. -/
structure FeeWindow where
  min : Int64
  max : Int64
  recommended : Int64
  deriving DecidableEq

/-- `(int64_t)ceil(d)`; what does not fit is undefined in C and the least integer on x86-64. -/
def ceilInt64 (q : ℚ) : Int64 :=
  if Int64.minValue.toInt ≤ ⌈q⌉ ∧ ⌈q⌉ ≤ Int64.maxValue.toInt then Int64.ofInt ⌈q⌉
  else Int64.minValue

/-- `fee_for_size` of `bsv_fees.c`: every operation rounds. -/
def feeForSize (sizeBytes feePerKb : Int64) : Except Err Int64 :=
  if sizeBytes < 0 ∨ feePerKb < 0 then .error .einval
  else
    let kb := Binary64.round (Binary64.round sizeBytes.toInt / 1000)
    .ok (ceilInt64 (Binary64.round (kb * Binary64.round feePerKb.toInt)))

def sendTimeFeeWindow (signedSizeBytes feePerKb : Int64) : Except Err FeeWindow := do
  let minFee ← feeForSize signedSizeBytes feePerKb
  let maxFee := minFee * 3
  let bumped := ceilInt64 (Binary64.round (Binary64.round minFee.toInt * Binary64.round (13 / 10)))
  let lower := if minFee > bumped then minFee else bumped
  return ⟨minFee, maxFee, if lower < maxFee then lower else maxFee⟩

end Fees

section Client

/-- What a WhatsOnChain client is asked for: the outputs of an address, the fee rate, and whether a
raw transaction was taken. -/
structure WocClient where
  listUtxos : CString → Except Err (List WocUtxo)
  feePerKb : Except Err Int64
  post : CString → Except Err Unit

variable (P : Prims) (woc : WocClient)

def chainBroadcastSelectFunding (funderAddress : CString) (needSats : Int64) :
    Except Err (List FundingUtxo) := do
  if funderAddress = [] then throw .einval
  if needSats ≤ 0 then throw .einval
  let listed ← woc.listUtxos funderAddress
  takeFunding needSats.toInt 0 (rankFundingUtxos listed)

def chainBroadcastFeeWindow (signedSizeBytes feePerKb : Int64) : Except Err FeeWindow :=
  sendTimeFeeWindow signedSizeBytes feePerKb

def txidFromRawHex (rawHex : CString) : Except Err CString := do
  let raw ← hexDecode rawHex
  if raw.length = 0 then throw .einval
  return hexEncode (sha256d P raw).1.reverse

/-- The txid is that of the bytes, whatever the service answers. -/
def wocClientBroadcast (rawHex : CString) : Except Err CString := do
  let expectedTxid ← txidFromRawHex P rawHex
  woc.post rawHex
  return expectedTxid

def chainBroadcastSend (rawHex : CString) : Except Err CString :=
  if rawHex = [] then .error .einval else wocClientBroadcast P woc rawHex

end Client

end BonsaiChain
