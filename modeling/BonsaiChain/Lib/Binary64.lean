import Mathlib.Algebra.Order.Field.Power
import Mathlib.Data.Int.Log
import Mathlib.Data.Rat.Floor
import Mathlib.Tactic.FieldSimp
import Mathlib.Tactic.NormNum
import Mathlib.Tactic.Positivity

/-!
# Rounding to binary64

The double nearest to a rational number, ties to the even significand, with gradual underflow and
overflow to infinity. A value is kept as the rational it stands for, so the two zeros are one.
-/

namespace BonsaiChain.Lib

/-- A `double` that is not a NaN. -/
inductive Binary64 where
  | finite (q : ℚ)
  | infinite (negative : Bool)
  deriving DecidableEq

/-- The nearest integer, the even one of two. -/
def roundHalfEven (q : ℚ) : ℤ :=
  let f := ⌊q⌋
  if q - f < 1 / 2 then f
  else if 1 / 2 < q - f then f + 1
  else if f % 2 = 0 then f else f + 1

/-- Towards zero. -/
def truncate (q : ℚ) : ℤ := if 0 ≤ q then ⌊q⌋ else ⌈q⌉

namespace Binary64

/-- The exponent of the last of the 53 significand bits, no less than that of the least double. -/
def lastPlace (q : ℚ) : ℤ := max (Int.log 2 |q| - 52) (-1074)

/-- The nearest number with that last place. -/
def round (q : ℚ) : ℚ := roundHalfEven (q / 2 ^ lastPlace q) * 2 ^ lastPlace q

def ofRat (q : ℚ) : Binary64 :=
  if 2 ^ 1024 ≤ |round q| then .infinite (q < 0) else .finite (round q)

end Binary64

theorem roundHalfEven_intCast (n : ℤ) : roundHalfEven n = n := by
  unfold roundHalfEven
  norm_num

theorem truncate_intCast (n : ℤ) : truncate n = n := by
  unfold truncate
  split_ifs <;> simp

theorem roundHalfEven_mono {p q : ℚ} (h : p ≤ q) : roundHalfEven p ≤ roundHalfEven q := by
  have hfloor : ⌊p⌋ ≤ ⌊q⌋ := Int.floor_le_floor h
  unfold roundHalfEven
  rcases Int.lt_or_eq_of_le hfloor with hlt | heq
  · simp only []
    split_ifs <;> omega
  · simp only [heq]
    have hle : p - ⌊q⌋ ≤ q - ⌊q⌋ := sub_le_sub_right h _
    by_cases hq : q - ⌊q⌋ < 1 / 2
    · rw [if_pos hq, if_pos (hle.trans_lt hq)]
    · by_cases hp : 1 / 2 < p - ⌊q⌋
      · rw [if_neg hq, if_pos (hp.trans_le hle)]
        split_ifs <;> omega
      · rw [if_neg hq, if_neg hp]
        split_ifs <;> omega

namespace Binary64

/-- A multiple of its last place is not rounded. -/
theorem round_eq_self {q : ℚ} {m : ℤ} (h : q = m * 2 ^ lastPlace q) : round q = q := by
  have hpos : (2 : ℚ) ^ lastPlace q ≠ 0 := zpow_ne_zero _ (by norm_num)
  have hdiv : q / 2 ^ lastPlace q = m := by
    rw [div_eq_iff hpos]
    exact h
  unfold round
  rw [hdiv, roundHalfEven_intCast]
  exact h.symm

theorem lastPlace_le {n : ℤ} (h : |n| < 2 ^ 53) : lastPlace n ≤ 0 := by
  have hlog : Int.log 2 |(n : ℚ)| < 53 := by
    by_cases hn : n = 0
    · simp [hn, Int.log_zero_right]
    · have hpos : 0 < |(n : ℚ)| := abs_pos.mpr (by exact_mod_cast hn)
      have hle := Int.zpow_log_le_self (b := 2) (by norm_num) hpos
      have hlt : |(n : ℚ)| < ((2 : ℕ) : ℚ) ^ (53 : ℤ) := by exact_mod_cast h
      exact (zpow_lt_zpow_iff_right₀ (by norm_num)).mp (hle.trans_lt hlt)
  unfold lastPlace
  exact max_le (by omega) (by omega)

theorem round_intCast {n : ℤ} (h : |n| ≤ 2 ^ 53) : round n = n := by
  rcases h.lt_or_eq with h | h
  · obtain ⟨k, hk⟩ := Int.eq_ofNat_of_zero_le (neg_nonneg.mpr (lastPlace_le h))
    refine round_eq_self (m := n * 2 ^ k) ?_
    have hplace : lastPlace n = -(k : ℤ) := by omega
    rw [hplace, zpow_neg, zpow_natCast]
    push_cast
    field_simp
  · have habs : |(n : ℚ)| = (2 : ℕ) ^ (53 : ℤ) := by exact_mod_cast h
    have hplace : lastPlace n = 1 := by
      unfold lastPlace
      rw [habs, Int.log_zpow (by norm_num)]
      norm_num
    rcases abs_eq (by norm_num : (0 : ℤ) ≤ 2 ^ 53) |>.mp h with rfl | rfl
    · refine round_eq_self (m := 2 ^ 52) ?_
      rw [hplace]
      norm_num
    · refine round_eq_self (m := -2 ^ 52) ?_
      rw [hplace]
      norm_num

/-- Integers of up to 53 bits are doubles. -/
theorem ofRat_intCast {n : ℤ} (h : |n| ≤ 2 ^ 53) : ofRat n = .finite n := by
  unfold ofRat
  rw [round_intCast h, if_neg]
  have hle : |(n : ℚ)| ≤ 2 ^ 53 := by exact_mod_cast h
  exact not_le.mpr (hle.trans_lt (pow_lt_pow_right₀ (by norm_num) (by norm_num)))

theorem lastPlace_mono {p q : ℚ} (hp : 0 < p) (h : p ≤ q) : lastPlace p ≤ lastPlace q := by
  unfold lastPlace
  rw [abs_of_pos hp, abs_of_pos (hp.trans_le h)]
  exact max_le_max_right _ (sub_le_sub_right (Int.log_mono_right hp h) _)

theorem lt_lastPlace {q : ℚ} (hq : 0 < q) : q < 2 ^ (lastPlace q + 53) := by
  have hlog : q < ((2 : ℕ) : ℚ) ^ (Int.log 2 q + 1) := Int.lt_zpow_succ_log_self (by norm_num) q
  refine hlog.trans_le (zpow_le_zpow_right₀ (by norm_num) ?_)
  unfold lastPlace
  rw [abs_of_pos hq]
  have := le_max_left (Int.log 2 q - 52) (-1074)
  omega

theorem round_nonneg {q : ℚ} (hq : 0 ≤ q) : 0 ≤ round q := by
  have hint : roundHalfEven ((0 : ℤ) : ℚ) = 0 := roundHalfEven_intCast 0
  have hle : (0 : ℤ) ≤ roundHalfEven (q / 2 ^ lastPlace q) := by
    rw [← hint]
    exact roundHalfEven_mono (by simpa using by positivity)
  have : (0 : ℚ) ≤ roundHalfEven (q / 2 ^ lastPlace q) := by exact_mod_cast hle
  unfold round
  positivity

theorem round_le {q : ℚ} (hq : 0 < q) : round q ≤ 2 ^ (lastPlace q + 53) := by
  have hdiv : q / 2 ^ lastPlace q ≤ ((2 ^ 53 : ℤ) : ℚ) := by
    rw [div_le_iff₀ (by positivity)]
    have := (lt_lastPlace hq).le
    rw [zpow_add₀ (by norm_num), mul_comm] at this
    exact_mod_cast this
  have hint := roundHalfEven_mono hdiv
  rw [roundHalfEven_intCast] at hint
  have : (roundHalfEven (q / 2 ^ lastPlace q) : ℚ) ≤ 2 ^ 53 := by exact_mod_cast hint
  rw [zpow_add₀ (by norm_num), mul_comm]
  unfold round
  gcongr
  exact_mod_cast this

theorem le_round {q : ℚ} (hq : 0 < q) (hplace : -1074 < lastPlace q) :
    2 ^ (lastPlace q + 52) ≤ round q := by
  have hlog : lastPlace q + 52 = Int.log 2 q := by
    unfold lastPlace at hplace ⊢
    rw [abs_of_pos hq] at hplace ⊢
    omega
  have hle : (2 : ℚ) ^ (lastPlace q + 52) ≤ q := by
    rw [hlog]
    exact Int.zpow_log_le_self (b := 2) (by norm_num) hq
  have hdiv : ((2 ^ 52 : ℤ) : ℚ) ≤ q / 2 ^ lastPlace q := by
    rw [le_div_iff₀ (by positivity)]
    rw [zpow_add₀ (by norm_num), mul_comm] at hle
    exact_mod_cast hle
  have hint := roundHalfEven_mono hdiv
  rw [roundHalfEven_intCast] at hint
  have : (2 : ℚ) ^ 52 ≤ roundHalfEven (q / 2 ^ lastPlace q) := by exact_mod_cast hint
  rw [zpow_add₀ (by norm_num), mul_comm]
  unfold round
  gcongr
  exact_mod_cast this

/-- Rounding keeps the order of numbers. -/
theorem round_le_round {p q : ℚ} (hp : 0 ≤ p) (h : p ≤ q) : round p ≤ round q := by
  rcases hp.eq_or_lt with rfl | hp
  · have hint : roundHalfEven 0 = 0 := roundHalfEven_intCast 0
    have hzero : round (0 : ℚ) = 0 := by simp [round, hint]
    rw [hzero]
    exact round_nonneg h
  have hplace := lastPlace_mono hp h
  rcases hplace.eq_or_lt with heq | hlt
  · unfold round
    rw [heq]
    have hdiv : p / 2 ^ lastPlace q ≤ q / 2 ^ lastPlace q := by gcongr
    have : (roundHalfEven (p / 2 ^ lastPlace q) : ℚ) ≤ roundHalfEven (q / 2 ^ lastPlace q) := by
      exact_mod_cast roundHalfEven_mono hdiv
    gcongr
  · -- a power of two is between the numbers, and so between what they round to
    exact (round_le hp).trans ((zpow_le_zpow_right₀ (by norm_num) (by omega)).trans
      (le_round (hp.trans_le h) ((le_max_right _ _).trans_lt hlt)))

end Binary64

end BonsaiChain.Lib
