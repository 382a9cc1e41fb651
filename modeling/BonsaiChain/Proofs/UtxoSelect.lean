import BonsaiChain.Agentd
import BonsaiChain.Lib.Results
import BonsaiChain.Lib.StableSort
import BonsaiChain.Proofs.TxBuilders
import BonsaiChain.UtxoSelect

/-!
# The ranking is a stable sort, and the shortest prefix is taken

Every pass of the merge sort merges neighbouring runs, so it is the stable sort of the entries that
pass the filter; the loop over it stops at the first total that is enough.
-/

namespace BonsaiChain

open Lib

section Order

/-- Confirmed outputs come first, then the larger ones. -/
def RankedUtxo.Before (a b : RankedUtxo) : Prop :=
  (a.confirmed = true ∧ b.confirmed = false)
    ∨ (a.confirmed = b.confirmed ∧ b.satoshis ≤ a.satoshis)

theorem cmpFunding_le_zero {a b : RankedUtxo} : cmpFunding a b ≤ 0 ↔ a.Before b := by
  unfold cmpFunding RankedUtxo.Before
  rcases ha : a.confirmed with _ | _ <;> rcases hb : b.confirmed with _ | _ <;> simp
  all_goals split_ifs <;> omega

instance : DecidableRel RankedUtxo.Before := fun _ _ => decidable_of_iff _ cmpFunding_le_zero

instance : IsTrans RankedUtxo RankedUtxo.Before where
  trans a b c hab hbc := by
    unfold RankedUtxo.Before at *
    rcases hab with ⟨ha, hb⟩ | ⟨hab, hle⟩
    · rcases hbc with ⟨hb', -⟩ | ⟨hbc, -⟩
      · simp [hb] at hb'
      · exact .inl ⟨ha, hbc ▸ hb⟩
    · rcases hbc with ⟨hb, hc⟩ | ⟨hbc, hle'⟩
      · exact .inl ⟨hab ▸ hb, hc⟩
      · exact .inr ⟨hab.trans hbc, hle'.trans hle⟩

instance : Std.Total RankedUtxo.Before where
  total a b := by
    unfold RankedUtxo.Before
    rcases a.confirmed with _ | _ <;> rcases b.confirmed with _ | _ <;> simp [le_total]

end Order

section Loops

variable {arr tmp : List RankedUtxo} {n l r k mid right width i : ℕ}

/-- The memory with `ws` from `k` on. -/
def overwrite (tmp : List RankedUtxo) (k : ℕ) (ws : List RankedUtxo) : List RankedUtxo :=
  tmp.take k ++ (ws ++ tmp.drop (k + ws.length))

theorem overwrite_nil : overwrite tmp k [] = tmp := by
  simp [overwrite]

theorem length_overwrite {ws : List RankedUtxo} (h : k + ws.length ≤ tmp.length) :
    (overwrite tmp k ws).length = tmp.length := by
  simp only [overwrite, List.length_append, List.length_take, List.length_drop]
  omega

theorem overwrite_overwrite (vs : List RankedUtxo) {ws : List RankedUtxo}
    (h : k + vs.length ≤ tmp.length) :
    overwrite (overwrite tmp k vs) (k + vs.length) ws = overwrite tmp k (vs ++ ws) := by
  have hk : (tmp.take k ++ vs).length = k + vs.length := by
    rw [List.length_append, List.length_take]
    omega
  unfold overwrite
  rw [← List.append_assoc (tmp.take k) vs, List.take_left' hk, ← List.drop_drop,
    List.drop_left' hk, List.drop_drop, List.length_append, Nat.add_assoc, List.append_assoc,
    List.append_assoc]

theorem copyItem_eq (hl : l < arr.length) (hk : k < tmp.length) :
    copyItem arr l k tmp = overwrite tmp k [arr[l]] := by
  unfold copyItem overwrite
  simp only [List.getElem?_eq_getElem hl]
  rw [List.set_eq_take_append_cons_drop, if_pos hk]
  rfl

/-- The items from `i` up to `j`. -/
def stretch (arr : List RankedUtxo) (i j : ℕ) : List RankedUtxo := (arr.drop i).take (j - i)

theorem stretch_cons {j : ℕ} (hij : i < j) (hi : i < arr.length) :
    stretch arr i j = arr[i] :: stretch arr (i + 1) j := by
  have hj : j - i = (j - (i + 1)) + 1 := by omega
  unfold stretch
  rw [List.drop_eq_getElem_cons hi, hj, List.take_succ_cons]

theorem length_stretch {j : ℕ} (hj : j ≤ arr.length) : (stretch arr i j).length = j - i := by
  unfold stretch
  rw [List.length_take, List.length_drop]
  omega

theorem copyItems_eq : ∀ {count l k : ℕ} {tmp : List RankedUtxo}, l + count ≤ arr.length →
    k + count ≤ tmp.length →
    copyItems arr count l k tmp = overwrite tmp k ((arr.drop l).take count)
  | 0, l, k, tmp, _, _ => by simp [copyItems, overwrite_nil]
  | count + 1, l, k, tmp, hl, hk => by
    have hl' : l < arr.length := by omega
    have hk' : k < tmp.length := by omega
    have hlen : (overwrite tmp k [arr[l]]).length = tmp.length := length_overwrite hk'
    rw [copyItems, copyItem_eq hl' hk', copyItems_eq (by omega) (by omega),
      List.drop_eq_getElem_cons hl', List.take_succ_cons]
    exact overwrite_overwrite [arr[l]] hk'

theorem leftFirst_eq (hl : l < arr.length) (hr : r < arr.length) :
    leftFirst arr l r = decide (arr[l].Before arr[r]) := by
  unfold leftFirst
  simp only [List.getElem?_eq_getElem hl, List.getElem?_eq_getElem hr, cmpFunding_le_zero]

/-- The runs are merged. -/
theorem mergeRuns_eq (hmid : mid ≤ arr.length) (hright : right ≤ arr.length) (hl : l ≤ mid)
    (hr : r ≤ right) (hk : k + (mid - l) + (right - r) ≤ tmp.length) :
    mergeRuns arr mid right l r k tmp
      = overwrite tmp k
        ((stretch arr l mid).merge (stretch arr r right) (RankedUtxo.Before · ·)) := by
  induction l, r, k, tmp using mergeRuns.induct arr mid right with
  | case1 l r k tmp hlt hfirst ih =>
    have hl : l < arr.length := by omega
    have hr : r < arr.length := by omega
    rw [leftFirst_eq hl hr] at hfirst
    have hlen : (overwrite tmp k [arr[l]]).length = tmp.length := length_overwrite (by simp; omega)
    rw [copyItem_eq hl (by omega)] at ih
    rw [mergeRuns, if_pos hlt, leftFirst_eq hl hr, if_pos hfirst, copyItem_eq hl (by omega),
      ih (by omega) (by omega) (by omega), stretch_cons hlt.1 hl, stretch_cons hlt.2 hr,
      List.cons_merge_cons_pos _ _ _ hfirst]
    exact overwrite_overwrite [arr[l]] (by simp; omega)
  | case2 l r k tmp hlt hfirst ih =>
    have hl : l < arr.length := by omega
    have hr : r < arr.length := by omega
    rw [leftFirst_eq hl hr] at hfirst
    have hlen : (overwrite tmp k [arr[r]]).length = tmp.length := length_overwrite (by simp; omega)
    rw [copyItem_eq hr (by omega)] at ih
    rw [mergeRuns, if_pos hlt, leftFirst_eq hl hr, if_neg hfirst, copyItem_eq hr (by omega),
      ih (by omega) (by omega) (by omega), stretch_cons hlt.1 hl, stretch_cons hlt.2 hr,
      List.cons_merge_cons_neg _ _ _ hfirst]
    exact overwrite_overwrite [arr[r]] (by simp; omega)
  | case3 l r k tmp hge =>
    have hmerge : (stretch arr l mid).merge (stretch arr r right) (RankedUtxo.Before · ·)
        = stretch arr l mid ++ stretch arr r right := by
      by_cases hlt : l < mid
      · have hr0 : right - r = 0 := by omega
        simp [stretch, hr0]
      · have hl0 : mid - l = 0 := by omega
        simp [stretch, hl0]
    have hlen : (stretch arr l mid).length = mid - l := length_stretch hmid
    have hcopy : copyItems arr (mid - l) l k tmp = overwrite tmp k (stretch arr l mid) :=
      copyItems_eq (by omega) (by omega)
    have hover : (overwrite tmp k (stretch arr l mid)).length = tmp.length :=
      length_overwrite (by omega)
    rw [mergeRuns, if_neg hge, hcopy, copyItems_eq (by omega) (by omega), hmerge, ← hlen]
    exact overwrite_overwrite _ (by omega)

theorem stretch_min {j : ℕ} : stretch arr i (min j arr.length) = (arr.drop i).take (j - i) := by
  unfold stretch
  rw [List.take_eq_take_iff, List.length_drop]
  omega

/-- A pass merges neighbouring runs. -/
theorem mergePass_eq (hwidth : 0 < width) (htmp : tmp.length = arr.length) :
    mergePass arr.length arr width i tmp
      = tmp.take i ++ mergePairs RankedUtxo.Before width (arr.drop i) := by
  induction i, tmp using mergePass.induct arr.length arr width with
  | case1 i tmp hlt mid right ih =>
    have hmid : stretch arr i mid = (arr.drop i).take width := by
      rw [stretch_min, Nat.add_sub_cancel_left]
    have hright : stretch arr mid right = ((arr.drop i).drop width).take width := by
      by_cases hle : i + width ≤ arr.length
      · have hmid' : mid = i + width := min_eq_left hle
        rw [stretch_min, hmid', List.drop_drop]
        congr 1
        omega
      · have hmid' : mid = arr.length := min_eq_right (by omega)
        rw [hmid', List.drop_drop, List.drop_of_length_le (by omega)]
        simp [stretch]
    have hmidle : i ≤ mid ∧ mid ≤ right ∧ right ≤ arr.length := by omega
    have hmerge : mergeRuns arr mid right i mid i tmp
        = overwrite tmp i ((stretch arr i mid).merge (stretch arr mid right)
          (RankedUtxo.Before · ·)) :=
      mergeRuns_eq (hmidle.2.1.trans hmidle.2.2) hmidle.2.2 hmidle.1 hmidle.2.1 (by omega)
    rw [hmid, hright] at hmerge
    generalize hM : ((arr.drop i).take width).merge (((arr.drop i).drop width).take width)
      (RankedUtxo.Before · ·) = ws at hmerge
    have hlen : ws.length = right - i := by
      rw [← hM, ← hmid, ← hright, List.length_merge, length_stretch (by omega),
        length_stretch (by omega)]
      omega
    have hout : (overwrite tmp i ws).length = tmp.length := length_overwrite (by omega)
    have htake : (overwrite tmp i ws).take (i + 2 * width) = tmp.take i ++ ws := by
      have hfront : (tmp.take i ++ ws).length = right := by
        rw [List.length_append, List.length_take]
        omega
      unfold overwrite
      rw [← List.append_assoc]
      by_cases hle : i + 2 * width ≤ arr.length
      · exact List.take_left' (by omega)
      · rw [List.drop_of_length_le (by omega), List.append_nil, List.take_of_length_le (by omega)]
    rw [mergePass, if_pos hlt, ih (by rw [hmerge, hout, htmp])]
    show List.take _ (mergeRuns arr mid right i mid i tmp) ++ _ = _
    rw [hmerge, htake, mergePairs_of_pos _ hwidth (arr.drop i), hM, List.drop_drop,
      List.append_assoc]
  | case2 i tmp hge =>
    have hi : arr.length ≤ i := by omega
    rw [mergePass, if_neg hge, List.drop_of_length_le hi, mergePairs_nil, List.append_nil,
      List.take_of_length_le (by omega)]

/-- The passes from `width` on finish the sort of what the runs were sorted from. -/
theorem mergePasses_eq {us : List RankedUtxo} (hwidth : 0 < width) (hn : us.length = n)
    (htmp : tmp.length = n) (harr : arr = runs RankedUtxo.Before width us) :
    mergePasses n width arr tmp = us.insertionSort RankedUtxo.Before := by
  induction width, arr, tmp using mergePasses.induct n with
  | case1 width arr tmp hlt tmp' ih =>
    have hlen : arr.length = n := by rw [harr, length_runs _ hwidth, hn]
    have htmp' : tmp' = runs RankedUtxo.Before (2 * width) us := by
      show mergePass n arr width 0 tmp = _
      rw [← hlen, mergePass_eq hwidth (htmp.trans hlen.symm), List.take_zero, List.nil_append,
        List.drop_zero, harr, mergePairs_runs _ hwidth]
    rw [mergePasses, if_pos hlt]
    exact ih (by omega) (by rw [htmp', length_runs _ (by omega), hn]) htmp'
  | case2 width arr tmp hge =>
    rw [mergePasses, if_neg hge, harr, runs_of_length_le _ hwidth (by omega)]

theorem stableSort_eq (fresh : ℕ → RankedUtxo) (us : List RankedUtxo) :
    stableSort fresh us = us.insertionSort RankedUtxo.Before := by
  unfold stableSort
  split_ifs with h
  · rw [← runs_of_length_le _ one_pos (by omega), runs_one]
  · exact mergePasses_eq one_pos rfl (by simp) (runs_one _ us).symm

end Loops

section Rank

variable (fresh : ℕ → RankedUtxo) (opts : RankOpts) (utxos : List WocUtxo)

/-- The entries that pass the filter, in the order of the listing. -/
def keptUtxos : List RankedUtxo := (utxos.filter opts.keeps).map rankedUtxo

theorem rankFunding_eq :
    rankFunding fresh opts utxos = (keptUtxos opts utxos).insertionSort RankedUtxo.Before :=
  stableSort_eq fresh _

/-- Entries of one key. -/
def RankedUtxo.sameKey (u v : RankedUtxo) : Bool :=
  v.confirmed = u.confirmed ∧ v.satoshis = u.satoshis

theorem rankFunding_stable (u : RankedUtxo) :
    (rankFunding fresh opts utxos).filter u.sameKey = (keptUtxos opts utxos).filter u.sameKey := by
  rw [rankFunding_eq]
  refine filter_insertionSort (fun a b ha hb => ?_) _
  simp only [RankedUtxo.sameKey, decide_eq_true_eq] at ha hb
  exact .inr ⟨ha.1.trans hb.1.symm, (hb.2.trans ha.2.symm).le⟩

/-- With the default options it is the ranking of the callers' model. -/
theorem rankFunding_default :
    (rankFunding fresh .default utxos).map (·.toFundingUtxo) = rankFundingUtxos utxos := by
  have hkeeps : RankOpts.default.keeps
    = fun u => decide (u.value ≤ maxMoneySats ∧ 0 ≤ u.value) := by
    funext u
    simp [RankOpts.keeps, RankOpts.default]
  have hbefore : ∀ a b : WocUtxo, comesBefore a b = true
    ↔ (rankedUtxo a).Before (rankedUtxo b) := by
    intro a b
    unfold comesBefore RankedUtxo.Before rankedUtxo
    by_cases ha : 0 < a.height <;> by_cases hb : 0 < b.height <;> simp [ha, hb]
  unfold rankFundingUtxos
  rw [rankFunding_eq, keptUtxos, hkeeps,
    ← List.map_insertionSort (fun a b => comesBefore a b = true) RankedUtxo.Before rankedUtxo _
      fun a _ b _ => hbefore a b, List.map_map]
  rfl

end Rank

section Select

variable {us : List RankedUtxo} {total : UInt64} {need : Int64}

/-- What outputs are worth, exactly. -/
def worth (us : List RankedUtxo) : ℤ := (us.map (·.satoshis)).sum

theorem worth_cons (u : RankedUtxo) (us : List RankedUtxo) :
    worth (u :: us) = u.satoshis + worth us := rfl

theorem worth_take_le {j k : ℕ} (hus : ∀ u ∈ us, 0 ≤ u.satoshis) (hjk : j ≤ k) :
    worth (us.take j) ≤ worth (us.take k) := by
  induction us generalizing j k with
  | nil => simp
  | cons u us ih =>
    rw [List.forall_mem_cons] at hus
    rcases j with _ | j <;> rcases k with _ | k
    · exact le_rfl
    · have hle : worth (us.take 0) ≤ worth (us.take k) := ih hus.2 (Nat.zero_le k)
      rw [List.take_succ_cons, worth_cons]
      simp only [List.take_zero] at hle ⊢
      have hu := hus.1
      omega
    · omega
    · rw [List.take_succ_cons, List.take_succ_cons, worth_cons, worth_cons]
      exact Int.add_le_add_left (ih hus.2 (by omega)) _

/-- The check in front of a sum lets through what keeps the exact total within the supply. -/
theorem outOfSupply_eq_false {v : ℤ} (htotal : (total.toNat : ℤ) ≤ maxMoneySats) :
    outOfSupply total v = false ↔ 0 ≤ v ∧ total.toNat + v ≤ maxMoneySats := by
  have hmax : (u64OfInt maxMoneySats).toNat = 2100000000000000 := rfl
  have hsub : (u64OfInt maxMoneySats - total).toNat = 2100000000000000 - total.toNat := by
    rw [UInt64.toNat_sub_of_le, hmax]
    rw [UInt64.le_iff_toNat_le, hmax]
    unfold maxMoneySats at htotal
    omega
  have hv := u64OfInt_toNat v
  unfold outOfSupply
  rw [decide_eq_false_iff_not, not_or, not_or, not_lt, not_lt, gt_iff_lt,
    UInt64.not_lt, UInt64.le_iff_toNat_le, hsub]
  unfold maxMoneySats at *
  constructor
  · rintro ⟨hpos, hle, hsum⟩
    rw [Int.emod_eq_of_lt hpos (by omega)] at hv
    omega
  · rintro ⟨hpos, hle⟩
    rw [Int.emod_eq_of_lt hpos (by omega)] at hv
    omega

theorem toNat_add_u64OfInt {v : ℤ} (hpos : 0 ≤ v) (hle : total.toNat + v ≤ maxMoneySats) :
    ((total + u64OfInt v).toNat : ℤ) = total.toNat + v := by
  have hv := u64OfInt_toNat v
  unfold maxMoneySats at hle
  rw [Int.emod_eq_of_lt hpos (by omega)] at hv
  rw [UInt64.toNat_add]
  omega

/-- The running total is the exact one and stays within the supply. -/
theorem fundingUtxosTotal_eq_ok {sum : UInt64} (htotal : (total.toNat : ℤ) ≤ maxMoneySats) :
    fundingUtxosTotal (us.map (·.toFundingUtxo)) total = .ok sum ↔ (∀ u ∈ us, 0 ≤ u.satoshis)
      ∧ total.toNat + worth us ≤ maxMoneySats ∧ (sum.toNat : ℤ) = total.toNat + worth us := by
  induction us generalizing total with
  | nil =>
    have hsum : total = sum ↔ (sum.toNat : ℤ) = total.toNat := by
      rw [← UInt64.toNat_inj]
      omega
    simp [fundingUtxosTotal, worth, hsum, htotal]
  | cons u us ih =>
    have hstep : fundingUtxosTotal ((u :: us).map (·.toFundingUtxo)) total
        = if outOfSupply total u.satoshis then .error .erange
          else fundingUtxosTotal (us.map (·.toFundingUtxo)) (total + u64OfInt u.satoshis) := by
      have hmax : (bonsaiMaxMoney.toNat : ℤ) = maxMoneySats := rfl
      have hmax' : bonsaiMaxMoney = u64OfInt maxMoneySats := rfl
      rw [List.map_cons, fundingUtxosTotal, outOfSupply, hmax, hmax']
      by_cases hrange : u.satoshis < 0 ∨ u.satoshis > maxMoneySats
      · rw [if_pos hrange, if_pos (by rw [decide_eq_true_eq]; exact or_assoc.1 (.inl hrange))]
      · rw [if_neg hrange]
        by_cases hsum : u64OfInt u.satoshis > u64OfInt maxMoneySats - total
        · rw [if_pos hsum, if_pos (by rw [decide_eq_true_eq]; exact .inr (.inr hsum))]
        · rw [if_neg hsum, if_neg]
          rw [decide_eq_true_eq, ← or_assoc]
          exact not_or.2 ⟨hrange, hsum⟩
    rw [hstep, List.forall_mem_cons, worth_cons]
    rcases hout : outOfSupply total u.satoshis with _ | _
    · obtain ⟨hpos, hle⟩ := (outOfSupply_eq_false htotal).1 hout
      have hnext := toNat_add_u64OfInt hpos hle
      rw [if_neg (by simp), ih (by omega), hnext]
      simp only [hpos, true_and, Int.add_assoc]
    · rw [if_pos rfl]
      refine ⟨fun h => by simp at h, ?_⟩
      rintro ⟨⟨hpos, hus⟩, hle, -⟩
      have hworth : 0 ≤ worth us := by
        have h := worth_take_le hus (Nat.zero_le us.length)
        rwa [List.take_length, List.take_zero] at h
      rw [(outOfSupply_eq_false htotal).2 ⟨hpos, by omega⟩] at hout
      simp at hout

/-- The outputs in front of the `k`-th are not enough, behind `sum` satoshis. -/
def TooFew (need sum : ℤ) (us : List RankedUtxo) (k : ℕ) : Prop :=
  ∀ j < k, sum + worth (us.take j) < need

theorem tooFew_succ {sum n : ℤ} {u : RankedUtxo} {k : ℕ} :
    TooFew n sum (u :: us) (k + 1) ↔ sum < n ∧ TooFew n (sum + u.satoshis) us k := by
  have hstep : ∀ j, sum + worth ((u :: us).take (j + 1)) = sum + u.satoshis + worth (us.take j) :=
    fun j => by rw [List.take_succ_cons, worth_cons, Int.add_assoc]
  have hzero : sum + worth ((u :: us).take 0) = sum := Int.add_zero _
  constructor
  · intro h
    refine ⟨hzero ▸ h 0 (Nat.succ_pos k), fun j hj => ?_⟩
    rw [← hstep]
    exact h (j + 1) (Nat.succ_lt_succ hj)
  · rintro ⟨hlt, h⟩ j hj
    rcases j with _ | j
    · rwa [hzero]
    · rw [hstep]
      exact h j (Nat.lt_of_succ_lt_succ hj)

/-- How the loop ends: with what it has taken, or at the supply. -/
theorem takeLoop_spec (hus : ∀ u ∈ us, 0 ≤ u.satoshis) (htotal : (total.toNat : ℤ) ≤ maxMoneySats)
    (hneed : (total.toNat : ℤ) < need.toInt) (take : ℕ) :
    (∃ k sum, takeLoop need us total take = .ok (sum, take + k) ∧ k ≤ us.length
      ∧ (sum.toNat : ℤ) = total.toNat + worth (us.take k) ∧ (sum.toNat : ℤ) ≤ maxMoneySats
      ∧ TooFew need.toInt total.toNat us k ∧ (need.toInt ≤ sum.toNat ∨ k = us.length))
    ∨ (takeLoop need us total take = .error .erange ∧ ∃ k ≤ us.length,
        maxMoneySats < total.toNat + worth (us.take k) ∧ TooFew need.toInt total.toNat us k) := by
  induction us generalizing total take with
  | nil =>
    refine .inl ⟨0, total, rfl, le_rfl, ?_, htotal, fun j hj => absurd hj (Nat.not_lt_zero j),
      .inr rfl⟩
    simp [worth]
  | cons u us ih =>
    rw [List.forall_mem_cons] at hus
    rcases hout : outOfSupply total u.satoshis with _ | _
    · obtain ⟨hpos, hle⟩ := (outOfSupply_eq_false htotal).1 hout
      have hnext := toNat_add_u64OfInt hpos hle
      have hge : total + u64OfInt u.satoshis ≥ need.toUInt64
          ↔ need.toInt ≤ (total + u64OfInt u.satoshis).toNat := by
        have hneed' : (need.toUInt64.toNat : ℤ) = need.toInt := toNat_toUInt64 (by omega)
        rw [ge_iff_le, UInt64.le_iff_toNat_le]
        omega
      rw [takeLoop, if_neg (by simp [hout])]
      by_cases henough : need.toInt ≤ (total + u64OfInt u.satoshis).toNat
      · rw [if_pos (hge.2 henough)]
        refine .inl ⟨1, _, rfl, by simp, ?_, by omega, tooFew_succ.2 ⟨hneed, ?_⟩, .inl henough⟩
        · simpa [worth] using hnext
        · exact fun j hj => absurd hj (Nat.not_lt_zero j)
      · rw [if_neg (mt hge.1 henough)]
        rcases ih hus.2 (by omega) (not_le.1 henough) (take + 1) with
          ⟨k, sum, hrun, hk, hsum, hsumle, hfew, hend⟩ | ⟨hrun, k, hk, hover, hfew⟩
        · refine .inl ⟨k + 1, sum, by rw [hrun, Nat.add_assoc, Nat.add_comm 1],
            by simpa using hk, ?_,
            hsumle, tooFew_succ.2 ⟨hneed, by rwa [hnext] at hfew⟩, by simpa using hend⟩
          rw [hsum, hnext, List.take_succ_cons, worth_cons, Int.add_assoc]
        · refine .inr ⟨hrun, k + 1, by simpa using hk, ?_,
            tooFew_succ.2 ⟨hneed, by rwa [hnext] at hfew⟩⟩
          rwa [hnext, Int.add_assoc, ← worth_cons, ← List.take_succ_cons] at hover
    · refine .inr ⟨by rw [takeLoop, if_pos (by simp [hout])], 1, by simp, ?_,
        tooFew_succ.2 ⟨hneed, ?_⟩⟩
      · have hnot : ¬total.toNat + u.satoshis ≤ maxMoneySats := fun hle => by
          rw [(outOfSupply_eq_false htotal).2 ⟨hus.1, hle⟩] at hout
          simp at hout
        simpa [worth] using hnot
      · exact fun j hj => absurd hj (Nat.not_lt_zero j)

/-- The loop takes what the callers' model of it takes. -/
theorem takeFunding_eq (hus : ∀ u ∈ us, 0 ≤ u.satoshis) (htotal : (total.toNat : ℤ) ≤ maxMoneySats)
    (hneed : (total.toNat : ℤ) < need.toInt) (take : ℕ) :
    takeFunding need.toInt total.toNat (us.map (·.toFundingUtxo))
      = (do
        let (sum, n) ← takeLoop need us total take
        if sum < need.toUInt64 then throw .enotfound
        return (us.take (n - take)).map (·.toFundingUtxo)) := by
  have hneed' : (need.toUInt64.toNat : ℤ) = need.toInt := toNat_toUInt64 (by omega)
  induction us generalizing total take with
  | nil =>
    have hlt : total < need.toUInt64 := by
      rw [UInt64.lt_iff_toNat_lt]
      omega
    simp [takeFunding, takeLoop, hlt, throw, throwThe, MonadExceptOf.throw, bind, Except.bind]
  | cons u us ih =>
    rw [List.forall_mem_cons] at hus
    rw [List.map_cons, takeFunding, takeLoop]
    rcases hout : outOfSupply total u.satoshis with _ | _
    · obtain ⟨hpos, hle⟩ := (outOfSupply_eq_false htotal).1 hout
      have hnext := toNat_add_u64OfInt hpos hle
      have hin : ¬(u.satoshis < 0 ∨ u.satoshis > maxMoneySats
          ∨ u.satoshis > maxMoneySats - (total.toNat : ℤ)) := by omega
      rw [if_neg hin, if_neg Bool.false_ne_true]
      by_cases henough : need.toInt ≤ total.toNat + u.satoshis
      · have hge : need.toUInt64 ≤ total + u64OfInt u.satoshis := by
          rw [UInt64.le_iff_toNat_le]
          omega
        rw [if_pos henough, if_pos hge, ok_bind]
        simp [UInt64.not_lt.2 hge, pure, Except.pure]
      · have hge : ¬need.toUInt64 ≤ total + u64OfInt u.satoshis := by
          rw [UInt64.le_iff_toNat_le]
          omega
        have hlt : ((total + u64OfInt u.satoshis).toNat : ℤ) < need.toInt := by omega
        have hrest := ih hus.2 (by omega) hlt (take + 1)
        rw [hnext] at hrest
        rw [if_neg henough, if_neg hge, hrest]
        rcases takeLoop_spec hus.2 (by omega) hlt (take + 1) with
          ⟨k, sum, hrun, -⟩ | ⟨hrun, -⟩
        · have hk : take + 1 + k - take = k + 1 := by omega
          rw [hrun, ok_bind, ok_bind]
          by_cases hsum : sum < need.toUInt64
          · simp [hsum]
            rfl
          · simp [hsum, hk, pure, Except.pure, bind, Except.bind]
        · rw [hrun]
          rfl
    · have hover : u.satoshis < 0 ∨ u.satoshis > maxMoneySats
          ∨ u.satoshis > maxMoneySats - (total.toNat : ℤ) := by
        by_contra hnot
        rw [(outOfSupply_eq_false htotal).2 ⟨hus.1, by omega⟩] at hout
        simp at hout
      rw [if_pos hover, if_pos rfl]
      rfl

end Select

section Funding

variable (fresh : ℕ → RankedUtxo)

theorem nonneg_of_mem_rankFunding {listed : List WocUtxo} {u : RankedUtxo}
    (hu : u ∈ rankFunding fresh .default listed) : 0 ≤ u.satoshis := by
  rw [rankFunding_eq, List.mem_insertionSort, keptUtxos, List.mem_map] at hu
  obtain ⟨v, hv, rfl⟩ := hu
  have hkeeps := (List.mem_filter.1 hv).2
  simp only [RankOpts.keeps, RankOpts.default, Option.getD_none] at hkeeps
  exact not_lt.1 (of_decide_eq_true hkeeps).2.1

/-- What is selected once the loop has run. -/
def selected (need : Int64) (ranked : List RankedUtxo) :
    Except Err (UInt64 × ℕ) → Except Err (List RankedUtxo)
  | .error e => .error e
  | .ok (total, take) =>
    if total < need.toUInt64 then .error .enotfound else .ok (ranked.take take)

theorem selectFunding_eq {need : Int64} (hneed : ¬need ≤ 0) (listed : List WocUtxo) :
    selectFunding fresh listed need = selected need (rankFunding fresh .default listed)
      (takeLoop need (rankFunding fresh .default listed) 0 0) := by
  unfold selectFunding
  rw [if_neg hneed]
  show takeLoop need (rankFunding fresh .default listed) 0 0 >>= _ = _
  rcases takeLoop need (rankFunding fresh .default listed) 0 0 with e | ⟨total, take⟩
  · rfl
  · rw [ok_bind, selected]
    by_cases hlt : total < need.toUInt64
    · simp only [hlt, if_true]
      rfl
    · simp only [hlt, if_false]
      rfl

/-- Funding as the callers model it is what the loops compute. -/
theorem chainBroadcastSelectFunding_eq (woc : WocClient) (funderAddress : CString) (need : Int64) :
    chainBroadcastSelectFunding woc funderAddress need = (do
      if funderAddress = [] then throw .einval
      if need ≤ 0 then throw .einval
      let listed ← woc.listUtxos funderAddress
      (selectFunding fresh listed need).map fun taken => taken.map (·.toFundingUtxo)) := by
  unfold chainBroadcastSelectFunding
  by_cases haddr : funderAddress = []
  · rw [if_pos haddr, if_pos haddr]
    rfl
  · by_cases hneed : need ≤ 0
    · rw [if_neg haddr, if_neg haddr, if_pos hneed, if_pos hneed]
      rfl
    · have hpos : (0 : ℤ) < need.toInt := by
        simpa using mt Int64.le_iff_toInt_le.2 hneed
      rw [if_neg haddr, if_neg haddr, if_neg hneed, if_neg hneed]
      rcases woc.listUtxos funderAddress with e | listed
      · rfl
      · have hzero : ((0 : UInt64).toNat : ℤ) ≤ maxMoneySats := by decide
        have hpos' : ((0 : UInt64).toNat : ℤ) < need.toInt := by simpa using hpos
        have hus : ∀ u ∈ rankFunding fresh .default listed, 0 ≤ u.satoshis :=
          fun u hu => nonneg_of_mem_rankFunding fresh hu
        have htake := takeFunding_eq hus hzero hpos' 0
        rw [UInt64.toNat_zero, Nat.cast_zero] at htake
        show takeFunding need.toInt 0 (rankFundingUtxos listed)
          = (selectFunding fresh listed need).map fun taken => taken.map (·.toFundingUtxo)
        rw [← rankFunding_default fresh, htake, selectFunding_eq fresh hneed]
        rcases takeLoop need (rankFunding fresh .default listed) 0 0 with e | ⟨sum, n⟩
        · rfl
        · rw [ok_bind, selected]
          by_cases hsum : sum < need.toUInt64
          · simp only [hsum, if_true]
            rfl
          · simp only [hsum, if_false]
            rfl

/-- The first `k` outputs are the least that are worth `need`. -/
structure Shortest (need : ℤ) (us : List RankedUtxo) (k : ℕ) : Prop where
  le : k ≤ us.length
  enough : need ≤ worth (us.take k)
  few : TooFew need 0 us k

/-- How a selection ends. -/
theorem selectFunding_cases (listed : List WocUtxo) {need : Int64} (hneed : 0 < need.toInt) :
    let ranked := rankFunding fresh .default listed
    (∃ k, selectFunding fresh listed need = .ok (ranked.take k) ∧ Shortest need.toInt ranked k
      ∧ worth (ranked.take k) ≤ maxMoneySats)
    ∨ (selectFunding fresh listed need = .error .enotfound ∧ worth ranked < need.toInt
      ∧ worth ranked ≤ maxMoneySats)
    ∨ (selectFunding fresh listed need = .error .erange ∧ ∃ k ≤ ranked.length,
      maxMoneySats < worth (ranked.take k) ∧ TooFew need.toInt 0 ranked k) := by
  intro ranked
  have hnot : ¬need ≤ 0 := fun h => absurd (Int64.le_iff_toInt_le.1 h) (not_le.2 hneed)
  have hneed' : (need.toUInt64.toNat : ℤ) = need.toInt := toNat_toUInt64 hneed.le
  have hus : ∀ u ∈ ranked, 0 ≤ u.satoshis := fun u hu => nonneg_of_mem_rankFunding fresh hu
  have hzero : ((0 : UInt64).toNat : ℤ) ≤ maxMoneySats := by decide
  have hpos : ((0 : UInt64).toNat : ℤ) < need.toInt := by simpa using hneed
  rcases takeLoop_spec hus hzero hpos 0 with
    ⟨k, sum, hrun, hk, hsum, hle, hfew, hend⟩ | ⟨hrun, k, hk, hover, hfew⟩
  all_goals
    rw [UInt64.toNat_zero, Nat.cast_zero] at hfew
  · rw [UInt64.toNat_zero, Nat.cast_zero, zero_add] at hsum
    rw [zero_add] at hrun
    by_cases henough : need.toInt ≤ sum.toNat
    · have hge : ¬sum < need.toUInt64 := by
        rw [UInt64.lt_iff_toNat_lt]
        omega
      refine .inl ⟨k, ?_, ⟨hk, hsum ▸ henough, hfew⟩, hsum ▸ hle⟩
      rw [selectFunding_eq fresh hnot, hrun, selected, if_neg hge]
    · obtain rfl : k = ranked.length := hend.resolve_left henough
      have hlt : sum < need.toUInt64 := by
        rw [UInt64.lt_iff_toNat_lt]
        omega
      rw [List.take_length] at hsum
      refine .inr (.inl ⟨?_, by omega, by omega⟩)
      rw [selectFunding_eq fresh hnot, hrun, selected, if_pos hlt]
  · rw [UInt64.toNat_zero, Nat.cast_zero, zero_add] at hover
    refine .inr (.inr ⟨?_, k, hk, hover, hfew⟩)
    rw [selectFunding_eq fresh hnot, hrun, selected]

section Exclusive

variable {need : ℤ} {us : List RankedUtxo} {k k' : ℕ}

theorem TooFew.le_of_enough (h : TooFew need 0 us k) (henough : need ≤ worth (us.take k')) :
    k ≤ k' := by
  by_contra hlt
  have := h k' (not_le.1 hlt)
  omega

theorem Shortest.unique (h : Shortest need us k) (h' : Shortest need us k') : k = k' :=
  le_antisymm (h.few.le_of_enough h'.enough) (h'.few.le_of_enough h.enough)

/-- A shortest prefix within the supply leaves no total above it before. -/
theorem Shortest.not_over (h : Shortest need us k) (hus : ∀ u ∈ us, 0 ≤ u.satoshis)
    (hle : worth (us.take k) ≤ maxMoneySats) (hfew : TooFew need 0 us k') :
    worth (us.take k') ≤ maxMoneySats :=
  (worth_take_le hus (hfew.le_of_enough h.enough)).trans hle

theorem Shortest.not_short (h : Shortest need us k) (hus : ∀ u ∈ us, 0 ≤ u.satoshis) :
    need ≤ worth us := by
  have hle := worth_take_le hus h.le
  rw [List.take_length] at hle
  exact h.enough.trans hle

end Exclusive

/-- The ranking is the stable sort of the entries that pass the filter. The shortest prefix of it
that is worth enough is selected as long as its total stays within the money supply; a total above
it is an error of its own. -/
theorem fundingSelection_correct :
    (∀ (opts : RankOpts) (utxos : List WocUtxo),
      (rankFunding fresh opts utxos).Perm (keptUtxos opts utxos)
      ∧ (rankFunding fresh opts utxos).Pairwise RankedUtxo.Before
      ∧ ∀ u : RankedUtxo, (rankFunding fresh opts utxos).filter u.sameKey
        = (keptUtxos opts utxos).filter u.sameKey)
    ∧ (∀ (us : List RankedUtxo) (sum : UInt64),
      fundingUtxosTotal (us.map (·.toFundingUtxo)) 0 = .ok sum
      ↔ (∀ u ∈ us, 0 ≤ u.satoshis) ∧ worth us ≤ maxMoneySats ∧ (sum.toNat : ℤ) = worth us)
    ∧ ∀ (listed : List WocUtxo) (need : Int64), 0 < need.toInt →
      let ranked := rankFunding fresh .default listed
      (∀ taken, selectFunding fresh listed need = .ok taken
        ↔ ∃ k, Shortest need.toInt ranked k ∧ worth (ranked.take k) ≤ maxMoneySats
          ∧ taken = ranked.take k)
      ∧ (selectFunding fresh listed need = .error .enotfound
        ↔ worth ranked < need.toInt ∧ worth ranked ≤ maxMoneySats)
      ∧ (selectFunding fresh listed need = .error .erange
        ↔ ∃ k ≤ ranked.length, maxMoneySats < worth (ranked.take k) ∧ TooFew need.toInt 0 ranked k)
      ∧ ∀ laps sum take, takeLoop need (ranked.take laps) 0 0 = .ok (sum, take) →
        (sum.toNat : ℤ) = worth ((ranked.take laps).take take)
          ∧ (sum.toNat : ℤ) ≤ maxMoneySats := by
  refine ⟨fun opts utxos => ⟨?_, ?_, rankFunding_stable fresh opts utxos⟩, fun us sum => ?_,
    fun listed need hneed => ?_⟩
  · rw [rankFunding_eq]
    exact List.perm_insertionSort _ _
  · rw [rankFunding_eq]
    exact List.pairwise_insertionSort _ _
  · have hzero : ((0 : UInt64).toNat : ℤ) ≤ maxMoneySats := by decide
    have htotal : fundingUtxosTotal (us.map (·.toFundingUtxo)) 0 = .ok sum ↔ _ :=
      fundingUtxosTotal_eq_ok hzero
    simpa using htotal
  · intro ranked
    have hus : ∀ u ∈ ranked, 0 ≤ u.satoshis := fun u hu => nonneg_of_mem_rankFunding fresh hu
    refine ⟨fun taken => ⟨fun h => ?_, ?_⟩, ⟨fun h => ?_, ?_⟩, ⟨fun h => ?_, ?_⟩,
      fun laps sum take hrun => ?_⟩
    · rcases selectFunding_cases fresh listed hneed with
        ⟨k, hrun, hshort, hle⟩ | ⟨hrun, -⟩ | ⟨hrun, -⟩
      · rw [hrun, Except.ok.injEq] at h
        exact ⟨k, hshort, hle, h.symm⟩
      · simp [hrun] at h
      · simp [hrun] at h
    · rintro ⟨k, hshort, hle, rfl⟩
      rcases selectFunding_cases fresh listed hneed with
        ⟨k', hrun, hshort', -⟩ | ⟨-, hlt, -⟩ | ⟨-, k', -, hover, hfew⟩
      · rw [hrun, hshort.unique hshort']
      · exact absurd (hshort.not_short hus) (not_le.2 hlt)
      · exact absurd (hshort.not_over hus hle hfew) (not_le.2 hover)
    · rcases selectFunding_cases fresh listed hneed with
        ⟨k, hrun, -⟩ | ⟨-, hlt, hle⟩ | ⟨hrun, -⟩
      · simp [hrun] at h
      · exact ⟨hlt, hle⟩
      · simp [hrun] at h
    · rintro ⟨hlt, hle⟩
      rcases selectFunding_cases fresh listed hneed with
        ⟨k, -, hshort, -⟩ | ⟨hrun, -⟩ | ⟨-, k, hk, hover, -⟩
      · exact absurd (hshort.not_short hus) (not_le.2 hlt)
      · exact hrun
      · have hmono := worth_take_le hus hk
        rw [List.take_length] at hmono
        exact absurd (hmono.trans hle) (not_le.2 hover)
    · rcases selectFunding_cases fresh listed hneed with
        ⟨k, hrun, -⟩ | ⟨hrun, -⟩ | ⟨-, hover⟩
      · simp [hrun] at h
      · simp [hrun] at h
      · exact hover
    · rintro ⟨k, hk, hover, hfew⟩
      rcases selectFunding_cases fresh listed hneed with
        ⟨k', -, hshort, hle⟩ | ⟨-, -, hle⟩ | ⟨hrun, -⟩
      · exact absurd (hshort.not_over hus hle hfew) (not_le.2 hover)
      · have hmono := worth_take_le hus hk
        rw [List.take_length] at hmono
        exact absurd (hmono.trans hle) (not_le.2 hover)
      · exact hrun
    · have hzero : ((0 : UInt64).toNat : ℤ) ≤ maxMoneySats := by decide
      have hpos : ((0 : UInt64).toNat : ℤ) < need.toInt := by simpa using hneed
      have htaken : ∀ u ∈ ranked.take laps, 0 ≤ u.satoshis :=
        fun u hu => hus u (List.mem_of_mem_take hu)
      rcases takeLoop_spec htaken hzero hpos 0 with
        ⟨k, sum', hrun', -, hsum, hle, -⟩ | ⟨hrun', -⟩
      · rw [hrun', Except.ok.injEq, Prod.mk.injEq] at hrun
        obtain ⟨rfl, rfl⟩ := hrun
        exact ⟨by simpa using hsum, hle⟩
      · simp [hrun'] at hrun

/-- Two outputs of which the second would take the total above the supply. -/
def richUtxos : List WocUtxo := [⟨List.replicate 64 49, 0, maxMoneySats - 5, 1⟩,
  ⟨List.replicate 64 50, 0, 10, 1⟩]

def blankMemory : ℕ → RankedUtxo := fun _ => ⟨⟨[], 0, 0⟩, false⟩

theorem rankFunding_rich : rankFunding blankMemory .default richUtxos
    = [⟨⟨List.replicate 64 49, 0, maxMoneySats - 5⟩, true⟩,
      ⟨⟨List.replicate 64 50, 0, 10⟩, true⟩] := by
  rw [rankFunding_eq]
  decide

theorem fundingSelection_correct_rich : selectFunding blankMemory richUtxos 7
    = .ok [⟨⟨List.replicate 64 49, 0, maxMoneySats - 5⟩, true⟩] := by
  obtain ⟨-, -, hselect⟩ := fundingSelection_correct blankMemory
  obtain ⟨hok, -⟩ := hselect richUtxos 7 (by decide)
  refine (hok _).2 ⟨1, ⟨?_, ?_, ?_⟩, ?_, ?_⟩
  · rw [rankFunding_rich]
    decide
  · rw [rankFunding_rich]
    decide
  · rw [rankFunding_rich]
    unfold TooFew
    decide
  · rw [rankFunding_rich]
    decide
  · rw [rankFunding_rich]
    rfl

/-- Both together are worth more than is needed, but their total is above the supply. -/
theorem selectFunding_refuses_rich :
    selectFunding blankMemory richUtxos 2100000000000000 = .error .erange
      ∧ Shortest 2100000000000000 (rankFunding blankMemory .default richUtxos) 2 := by
  refine ⟨?_, ⟨?_, ?_, ?_⟩⟩
  · rw [selectFunding_eq _ (by decide), rankFunding_rich]
    decide
  · rw [rankFunding_rich]
    decide
  · rw [rankFunding_rich]
    decide
  · rw [rankFunding_rich]
    unfold TooFew
    decide

end Funding

end BonsaiChain
