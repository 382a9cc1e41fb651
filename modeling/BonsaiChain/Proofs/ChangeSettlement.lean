import BonsaiChain.ChangeSettlement
import BonsaiChain.Hash
import BonsaiChain.Proofs.TxBuilders

/-!
# Settling the change conserves value

The call in place does what the settlement on a value does, and leaves the transaction alone when it
fails. What was seeded is what the outputs hold afterwards and the fee.
-/

namespace BonsaiChain

open Lib

section InPlace

variable {P : Prims} {tx : Tx} {changeIndex : ℕ} {feePerKb : UInt64}

theorem sumOutputsBut_past : ∀ {changeIndex i : ℕ} {acc : UInt64} {os : List TxOut},
    changeIndex < i → sumOutputsBut changeIndex i acc os = sumOutputs acc os
  | _, _, _, [], _ => rfl
  | changeIndex, i, acc, o :: os, h => by
    rw [sumOutputsBut, if_neg (by omega), sumOutputs, sumOutputsBut_past (by omega)]

/-- The loop sums the outputs without the change output. -/
theorem sumOutputsBut_eq : ∀ {n i : ℕ} {acc : UInt64} {os : List TxOut},
    sumOutputsBut (i + n) i acc os = sumOutputs acc (os.eraseIdx n)
  | _, _, _, [] => rfl
  | 0, i, acc, o :: os => by
    rw [sumOutputsBut, if_pos (Nat.add_zero i).symm, sumOutputsBut_past (by omega),
      List.eraseIdx_cons_zero]
  | n + 1, i, acc, o :: os => by
    rw [sumOutputsBut, if_neg (by omega), List.eraseIdx_cons_succ, sumOutputs,
      ← sumOutputsBut_eq (n := n) (i := i + 1)]
    simp only [Nat.add_assoc, Nat.add_comm 1 n]

/-- Moving the outputs behind an index down takes that output out. -/
theorem shiftOutputs_eq : ∀ {n i : ℕ} {os : List TxOut}, i + n + 1 = os.length →
    (shiftOutputs n i os).take (i + n) = os.eraseIdx i
  | 0, i, os, h => by
    rw [shiftOutputs, Nat.add_zero, List.eraseIdx_eq_take_drop_succ,
      List.drop_of_length_le (by omega), List.append_nil]
  | n + 1, i, os, h => by
    have hlt : i + 1 < os.length := by omega
    have hnext : os.getD (i + 1) ⟨0, []⟩ = os[i + 1] := by
      rw [List.getD_eq_getElem?_getD, List.getElem?_eq_getElem hlt, Option.getD_some]
    rw [shiftOutputs, hnext, show i + (n + 1) = i + 1 + n by omega,
      shiftOutputs_eq (by simp; omega)]
    apply List.ext_getElem?
    intro k
    rw [List.getElem?_eraseIdx, List.getElem?_eraseIdx, List.getElem?_set, List.getElem?_set]
    by_cases hk : k = i
    · subst hk
      simp [hlt, show k < os.length by omega]
    · by_cases hki : k < i
      · simp [hki, Ne.symm hk, show k < i + 1 by omega]
      · simp [hki, show ¬k < i + 1 by omega, show i ≠ k + 1 by omega]

theorem removeOutput_eq {os : List TxOut} {i : ℕ} (h : i < os.length) :
    removeOutput os i = os.eraseIdx i := by
  unfold removeOutput
  rw [show os.length - 1 = i + (os.length - 1 - i) by omega, Nat.add_sub_cancel_left]
  exact shiftOutputs_eq (by omega)

/-- The call in place returns what the settlement does, and changes nothing when it fails. -/
theorem settleInPlace_eq (P : Prims) (tx : Tx) (changeIndex : ℕ) (feePerKb : UInt64) :
    callOn (updateChangeOutputInPlace P changeIndex feePerKb) tx
      = match updateChangeOutput P tx changeIndex feePerKb with
        | .ok tx' => (.ok (), tx')
        | .error e => (.error e, tx) := by
  by_cases hindex : changeIndex < tx.outputs.length
  · have hchange : tx.outputs[changeIndex]? = some (tx.outputs.getD changeIndex ⟨0, []⟩) := by
      simp [List.getD_eq_getElem?_getD, hindex]
    have hsum : sumOutputsBut changeIndex 0 0 tx.outputs
        = sumOutputs 0 (tx.outputs.eraseIdx changeIndex) := by
      rw [← sumOutputsBut_eq (i := 0), Nat.zero_add]
    have hset (v : UInt64) : setSatoshis tx.outputs changeIndex v
        = tx.outputs.set changeIndex
          { tx.outputs.getD changeIndex ⟨0, []⟩ with satoshis := v } := by
      unfold setSatoshis
      rw [List.modify_eq_set_getElem?, hchange]
      rfl
    simp only [updateChangeOutputInPlace, callOn_get_bind, callOn_ite, callOn_throw_bind,
      updateChangeOutput, hchange, ge_iff_le, Nat.not_le.2 hindex, if_false, hsum]
    rcases sumOutputs 0 (tx.outputs.eraseIdx changeIndex) with e | outSum
    · simp only [callOn_lift_error_bind]
      split_ifs <;> rfl
    · simp only [callOn_lift_ok_bind, callOn_ite, callOn_throw_bind, callOn_modify,
        removeOutput_eq hindex, hset, ok_bind, throw_bind]
      unfold bonsaiDustAmount
      split_ifs <;> rfl
  · have hnone : tx.outputs[changeIndex]? = none := by simpa using hindex
    simp only [updateChangeOutputInPlace, callOn_get_bind, callOn_throw_bind,
      updateChangeOutput, hnone, ge_iff_le, Nat.not_lt.1 hindex, if_true]

end InPlace

section Fee

namespace TxChange

theorem ceilUInt64_mono {p q : ℚ} (h : p ≤ q) : ceilUInt64 p ≤ ceilUInt64 q := by
  have hceil : ⌈p⌉.toNat ≤ ⌈q⌉.toNat := Int.toNat_le_toNat (Int.ceil_le_ceil h)
  unfold ceilUInt64
  rw [UInt64.le_iff_toNat_le, UInt64.toNat_ofNat', UInt64.toNat_ofNat']
  omega

/-- No rounding makes the fee of a larger transaction lower. -/
theorem feeForSize_mono (feePerKb : UInt64) {m n : ℕ} (h : m ≤ n) :
    feeForSize m feePerKb ≤ feeForSize n feePerKb := by
  have hrate : 0 ≤ Binary64.round feePerKb.toNat := Binary64.round_nonneg (by positivity)
  have hsize : Binary64.round m ≤ Binary64.round n :=
    Binary64.round_le_round (by positivity) (by exact_mod_cast h)
  have hpos : 0 ≤ Binary64.round m := Binary64.round_nonneg (by positivity)
  have hkb : Binary64.round (Binary64.round m / 1000) ≤ Binary64.round (Binary64.round n / 1000) :=
    Binary64.round_le_round (by positivity) (by gcongr)
  have hkbpos : 0 ≤ Binary64.round (Binary64.round m / 1000) :=
    Binary64.round_nonneg (by positivity)
  exact ceilUInt64_mono (Binary64.round_le_round (by positivity) (by gcongr))

end TxChange

end Fee

section Conservation

/-- What a settlement leaves: the seed is what the outputs hold and the fee of the transaction with
the change output; that output is gone when nothing is left for it, and otherwise only its value has
changed. -/
structure Settles (P : Prims) (changeIndex : ℕ) (feePerKb : UInt64) (tx : Tx) (change : TxOut)
    (tx' : Tx) : Prop where
  seeded : tx.outputs[changeIndex]? = some change
  conserves : change.satoshis.toNat
    = outTotal tx'.outputs + (P.feeForSize (estimateSize tx) feePerKb).toNat
  frame : { tx' with outputs := tx.outputs } = tx
  outputs : if change.satoshis.toNat = outTotal (tx.outputs.eraseIdx changeIndex)
        + (P.feeForSize (estimateSize tx) feePerKb).toNat then
      tx'.outputs = tx.outputs.eraseIdx changeIndex
    else ∃ amount ≥ 1,
      tx'.outputs = tx.outputs.set changeIndex { change with satoshis := amount }

theorem outTotal_set {os : List TxOut} {i : ℕ} {change : TxOut} (h : os[i]? = some change)
    (amount : UInt64) : outTotal (os.set i { change with satoshis := amount })
      = outTotal (os.eraseIdx i) + amount.toNat := by
  induction os generalizing i with
  | nil => simp at h
  | cons o os ih =>
    cases i with
    | zero =>
      simp only [List.set_cons_zero, List.eraseIdx_cons_zero, outTotal_cons]
      omega
    | succ i =>
      simp only [List.set_cons_succ, List.eraseIdx_cons_succ, outTotal_cons, ih (by simpa using h)]
      omega

theorem settles_of_eq_ok {P : Prims} {tx tx' : Tx} {changeIndex : ℕ} {feePerKb : UInt64}
    (h : updateChangeOutput P tx changeIndex feePerKb = .ok tx') :
    ∃ change, Settles P changeIndex feePerKb tx change tx' := by
  obtain ⟨change, amount, hseeded, -, htotal, rfl⟩ := updateChangeOutput_eq_ok h
  by_cases hamount : amount ≥ 1
  · have hpos : 1 ≤ amount.toNat := UInt64.le_iff_toNat_le.mp hamount
    rw [if_pos hamount]
    refine ⟨change, hseeded, ?_, rfl, ?_⟩
    · rw [outTotal_set hseeded, htotal]
      omega
    · rw [if_neg (by omega)]
      exact ⟨amount, hamount, rfl⟩
  · have hzero : amount.toNat = 0 := by
      rw [not_one_le_iff.mp hamount]
      rfl
    rw [if_neg hamount]
    refine ⟨change, hseeded, by simpa [hzero] using htotal, rfl, ?_⟩
    rw [if_pos (by omega)]

/-- A settlement conserves value; a call that fails leaves the transaction as it was; and after any
number of laps the running sum is exact. -/
theorem updateChangeOutput_conserves (P : Prims) (tx : Tx) (changeIndex : ℕ) (feePerKb : UInt64) :
    (∀ tx', callOn (updateChangeOutputInPlace P changeIndex feePerKb) tx = (.ok (), tx') →
        ∃ change, Settles P changeIndex feePerKb tx change tx')
      ∧ (∀ e tx', callOn (updateChangeOutputInPlace P changeIndex feePerKb) tx = (.error e, tx') →
        tx' = tx)
      ∧ ∀ laps outSum, sumOutputsBut changeIndex 0 0 (tx.outputs.take laps) = .ok outSum →
        outSum.toNat = outTotal ((tx.outputs.take laps).eraseIdx changeIndex) := by
  rw [settleInPlace_eq]
  refine ⟨fun tx' h => ?_, fun e tx' h => ?_, fun laps outSum h => ?_⟩
  · rcases hsettle : updateChangeOutput P tx changeIndex feePerKb with e | settled
    · simp [hsettle] at h
    · simp only [hsettle, Prod.mk.injEq, true_and] at h
      rw [← h]
      exact settles_of_eq_ok hsettle
  · rcases hsettle : updateChangeOutput P tx changeIndex feePerKb with e | settled
    · simp only [hsettle, Prod.mk.injEq] at h
      exact h.2.symm
    · simp [hsettle] at h
  · have hsum : sumOutputsBut (0 + changeIndex) 0 0 (tx.outputs.take laps)
        = sumOutputs 0 ((tx.outputs.take laps).eraseIdx changeIndex) := sumOutputsBut_eq
    rw [Nat.zero_add, h] at hsum
    have hexact := sumOutputs_eq_ok (show (0 : UInt64) ≤ bonsaiMaxMoney by decide) hsum.symm
    simpa using hexact

/-- Of a seed of 1,000 satoshis 100 are paid, 2 are the fee of 28 bytes and 898 are the change. -/
theorem updateChangeOutput_conserves_thousand :
    ∃ change, Settles codePrims 1 50 ⟨1, [], [⟨100, []⟩, ⟨1000, []⟩], 0⟩ change
      ⟨1, [], [⟨100, []⟩, ⟨898, []⟩], 0⟩ :=
  (updateChangeOutput_conserves codePrims ⟨1, [], [⟨100, []⟩, ⟨1000, []⟩], 0⟩ 1 50).1 _
    (by decide +kernel)

end Conservation

end BonsaiChain
