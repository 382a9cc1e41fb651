import BonsaiChain.Lib.Results
import BonsaiChain.Num2bin
import Mathlib.Tactic.Ring

/-!
# Integers as script bytes

When the fixed-width encoders succeed and with which bytes.
-/

namespace BonsaiChain

open Lib

theorem bnNumBytes_le_iff {n w : ℕ} : bnNumBytes n ≤ w ↔ n < 256 ^ w := by
  have hpow : 256 ^ w = 2 ^ (8 * w) := by
    rw [pow_mul]
    norm_num
  unfold bnNumBytes
  by_cases hn : n = 0
  · subst hn
    simp
  · rw [if_neg hn, hpow, ← Nat.log2_lt hn]
    omega

theorem bnMagnitude_lt (n : ℕ) : n < 256 ^ bnNumBytes n := bnNumBytes_le_iff.mp le_rfl

theorem leNat_bnMagnitudeLe (n : ℕ) : leNat (bnMagnitudeLe n) = n := by
  unfold bnMagnitudeLe
  exact leNat_leBytes_of_lt (bnMagnitude_lt n)

theorem bnToLeBytes_eq_ok {n : ℤ} {w : ℕ} {bs : Bytes} :
    bnToLeBytes n w = .ok bs ↔ 0 ≤ n ∧ n < 256 ^ w ∧ bs = leBytes w n.toNat := by
  simp only [bnToLeBytes, error_ite_eq_ok, not_lt, gt_iff_lt, bnNumBytes_le_iff, Except.ok.injEq]
  refine and_congr_right fun hn => ?_
  rw [show n.natAbs = n.toNat by omega, eq_comm (a := bs)]
  refine and_congr_left fun _ => ?_
  rw [← Nat.cast_lt (α := ℤ), Int.toNat_of_nonneg hn]
  push_cast
  rfl

end BonsaiChain
