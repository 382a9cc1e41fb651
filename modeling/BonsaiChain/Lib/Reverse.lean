import Mathlib.Data.List.Basic

/-!
# Reversal in place

The loop that swaps the ends of an array and moves inwards turns it around.
-/

namespace BonsaiChain.Lib

variable {α : Type*}

/-- Swap the elements at `i` and before `j`, and go on inwards while `i` is left of `j`. -/
def swapInwards (xs : Array α) (i : ℕ) : ℕ → Array α
  | 0 => xs
  | j + 1 => if j ≤ i then xs else swapInwards (xs.swapIfInBounds i j) (i + 1) j

def reverseInPlace (xs : Array α) : Array α := swapInwards xs 0 xs.size

@[simp] theorem size_swapInwards : ∀ {xs : Array α} {i j : ℕ}, (swapInwards xs i j).size = xs.size
  | xs, i, 0 => rfl
  | xs, i, j + 1 => by
    unfold swapInwards
    split_ifs
    · rfl
    · rw [size_swapInwards, Array.size_swapIfInBounds]

/-- Positions from `i` to before `j` are mirrored, and no other is touched. -/
theorem getElem?_swapInwards : ∀ {xs : Array α} {i j k : ℕ}, i + j = xs.size → k < xs.size →
    (swapInwards xs i j)[k]? = if i ≤ k ∧ k < j then xs[i + j - 1 - k]? else xs[k]?
  | xs, i, 0, k, _, _ => by simp [swapInwards]
  | xs, i, j + 1, k, hsize, hk => by
    unfold swapInwards
    by_cases hij : j ≤ i
    · rw [if_pos hij]
      split_ifs with h
      · obtain rfl : k = i := by omega
        congr 1
        omega
      · rfl
    · rw [if_neg hij, getElem?_swapInwards (by rw [Array.size_swapIfInBounds]; omega)
        (by rwa [Array.size_swapIfInBounds])]
      have hswap : ∀ m < xs.size, (xs.swapIfInBounds i j)[m]?
          = if m = i then xs[j]? else if m = j then xs[i]? else xs[m]? := by
        intro m hm
        rw [Array.swapIfInBounds_def, dif_pos (by omega), dif_pos (by omega), Array.getElem?_swap]
        have hi : i < xs.size := by omega
        have hj : j < xs.size := by omega
        simp only [Array.getElem?_eq_getElem hi, Array.getElem?_eq_getElem hj, eq_comm (b := m)]
        split_ifs <;> first | rfl | omega
      rw [hswap _ (by omega), hswap _ (by omega)]
      by_cases h : i ≤ k ∧ k < j + 1
      · rw [if_pos h]
        by_cases hki : k = i
        · rw [if_neg (by omega), if_pos hki]
          congr 1
          omega
        · by_cases hkj : k = j
          · rw [if_neg (by omega), if_neg hki, if_pos hkj]
            congr 1
            omega
          · rw [if_pos (by omega), if_neg (by omega), if_neg (by omega)]
            congr 1
            omega
      · rw [if_neg h, if_neg (by omega), if_neg (by omega), if_neg (by omega)]

@[simp] theorem toList_reverseInPlace (xs : Array α) :
    (reverseInPlace xs).toList = xs.toList.reverse := by
  refine List.ext_getElem? fun k => ?_
  by_cases hk : k < xs.size
  · rw [Array.getElem?_toList, reverseInPlace, getElem?_swapInwards (by omega) hk,
      if_pos ⟨Nat.zero_le k, hk⟩, List.getElem?_reverse (by simpa using hk),
      Array.getElem?_toList, Array.length_toList, Nat.zero_add]
  · rw [List.getElem?_eq_none (by simpa [reverseInPlace] using hk),
      List.getElem?_eq_none (by simpa using hk)]

end BonsaiChain.Lib
