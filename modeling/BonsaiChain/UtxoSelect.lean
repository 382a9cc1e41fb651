import BonsaiChain.ChainBroadcast

/-!
# Ranking and taking funding

`chainSources/utxo_select.c` as it computes: a filter, then a merge sort from the bottom up that
goes back and forth between an array and a copy of it. Over it `chain_broadcast_select_funding`
takes the first outputs that are worth what is needed.
-/

namespace BonsaiChain

/-- `funding_utxo_t`, with the flag that the ranking reads. -/
structure RankedUtxo extends FundingUtxo where
  confirmed : Bool
  deriving DecidableEq, Repr

/-- `rank_opts_t`: what is absent has its default. -/
structure RankOpts where
  confirmedOnly : Option Bool
  minSats : Option ℤ

def cmpFunding (a b : RankedUtxo) : ℤ :=
  if a.confirmed ≠ b.confirmed then if a.confirmed then -1 else 1
  else if b.satoshis > a.satoshis then 1
  else if b.satoshis < a.satoshis then -1
  else 0

section StableSort

/-- `tmp[k] = arr[l]`. -/
def copyItem (arr : List RankedUtxo) (l k : ℕ) (tmp : List RankedUtxo) : List RankedUtxo :=
  match arr[l]? with
  | none => tmp
  | some a => tmp.set k a

/-- `count` items from `l` on, to `k` on. -/
def copyItems (arr : List RankedUtxo) : ℕ → ℕ → ℕ → List RankedUtxo → List RankedUtxo
  | 0, _, _, tmp => tmp
  | count + 1, l, k, tmp => copyItems arr count (l + 1) (k + 1) (copyItem arr l k tmp)

/-- `cmp_funding(&arr[l], &arr[r]) <= 0`. -/
def leftFirst (arr : List RankedUtxo) (l r : ℕ) : Bool :=
  match arr[l]?, arr[r]? with
  | some a, some b => cmpFunding a b ≤ 0
  | _, _ => true

/-- The three loops that merge the runs up to `mid` and up to `right` into `tmp`. -/
def mergeRuns (arr : List RankedUtxo) (mid right l r k : ℕ) (tmp : List RankedUtxo) :
    List RankedUtxo :=
  if l < mid ∧ r < right then
    if leftFirst arr l r then mergeRuns arr mid right (l + 1) r (k + 1) (copyItem arr l k tmp)
    else mergeRuns arr mid right l (r + 1) (k + 1) (copyItem arr r k tmp)
  else copyItems arr (right - r) r (k + (mid - l)) (copyItems arr (mid - l) l k tmp)
termination_by mid - l + (right - r)

/-- One pass over `n` items: the runs from `i` on, two by two. -/
def mergePass (n : ℕ) (arr : List RankedUtxo) (width i : ℕ) (tmp : List RankedUtxo) :
    List RankedUtxo :=
  if i < n ∧ 0 < width then
    let mid := min (i + width) n
    let right := min (i + 2 * width) n
    mergePass n arr width (i + 2 * width) (mergeRuns arr mid right i mid i tmp)
  else tmp
termination_by n - i

/-- The passes from `width` on; what a pass has written is copied back. -/
def mergePasses (n width : ℕ) (arr tmp : List RankedUtxo) : List RankedUtxo :=
  if width < n ∧ 0 < width then
    let tmp' := mergePass n arr width 0 tmp
    mergePasses n (2 * width) tmp' tmp'
  else arr
termination_by n - width

/-- `stable_sort`. `fresh` is what the allocated memory happens to hold. -/
def stableSort (fresh : ℕ → RankedUtxo) (arr : List RankedUtxo) : List RankedUtxo :=
  if arr.length < 2 then arr
  else mergePasses arr.length 1 arr ((List.range arr.length).map fresh)

end StableSort

section Rank

def RankOpts.keeps (opts : RankOpts) (u : WocUtxo) : Bool :=
  ¬u.value > maxMoneySats ∧ ¬u.value < opts.minSats.getD 0
    ∧ ¬(opts.confirmedOnly.getD false ∧ ¬0 < u.height)

def rankedUtxo (u : WocUtxo) : RankedUtxo := ⟨⟨u.txHash, u.txPos, u.value⟩, 0 < u.height⟩

/-- `rank_funding_utxos`. -/
def rankFunding (fresh : ℕ → RankedUtxo) (opts : RankOpts) (utxos : List WocUtxo) :
    List RankedUtxo :=
  stableSort fresh ((utxos.filter opts.keeps).map rankedUtxo)

/-- `opts == NULL`. -/
def RankOpts.default : RankOpts := ⟨none, none⟩

end Rank

section Select

/-- The check in front of every sum: the running total never passes the money supply. -/
def outOfSupply (total : UInt64) (v : ℤ) : Bool :=
  v < 0 ∨ v > maxMoneySats ∨ u64OfInt v > u64OfInt maxMoneySats - total

/-- The loop of `chain_broadcast_select_funding`: the total and how many outputs are taken. -/
def takeLoop (need : Int64) : List RankedUtxo → UInt64 → ℕ → Except Err (UInt64 × ℕ)
  | [], total, take => .ok (total, take)
  | u :: us, total, take =>
    if outOfSupply total u.satoshis then .error .erange
    else if total + u64OfInt u.satoshis ≥ need.toUInt64 then
      .ok (total + u64OfInt u.satoshis, take + 1)
    else takeLoop need us (total + u64OfInt u.satoshis) (take + 1)

/-- `chain_broadcast_select_funding` behind the listing. -/
def selectFunding (fresh : ℕ → RankedUtxo) (listed : List WocUtxo) (need : Int64) :
    Except Err (List RankedUtxo) := do
  if need ≤ 0 then throw .einval
  let ranked := rankFunding fresh .default listed
  let (total, take) ← takeLoop need ranked 0 0
  if total < need.toUInt64 then throw .enotfound
  return ranked.take take

end Select

end BonsaiChain
