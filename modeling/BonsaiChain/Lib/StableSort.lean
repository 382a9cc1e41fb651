import Mathlib.Data.List.Sort

/-!
# Stable sorting by merging

Insertion sort is the stable sort. Merging two stably sorted lists sorts what they came from, so
merging runs of doubling width, pair by pair, comes to the same.
-/

namespace BonsaiChain.Lib

open List

variable {α : Type*} (r : α → α → Prop) [DecidableRel r]

section Stable

variable {r} {p : α → Bool}

theorem filter_orderedInsert (hp : ∀ a b, p a = true → p b = true → r a b) (x : α) (l : List α) :
    (l.orderedInsert r x).filter p = (x :: l).filter p := by
  induction l with
  | nil => rfl
  | cons y l ih =>
    by_cases hxy : r x y
    · rw [orderedInsert_cons_of_le r l hxy]
    · rw [orderedInsert_of_not_le r l hxy, filter_cons, ih]
      by_cases hx : p x
      · have hy : p y = false := by simpa using fun hy => hxy (hp x y hx hy)
        simp [hx, hy]
      · rw [filter_cons_of_neg hx, filter_cons_of_neg hx, filter_cons]

/-- What is not told apart keeps its order. -/
theorem filter_insertionSort (hp : ∀ a b, p a = true → p b = true → r a b) (l : List α) :
    (l.insertionSort r).filter p = l.filter p := by
  induction l with
  | nil => rfl
  | cons x l ih => rw [insertionSort_cons, filter_orderedInsert hp, filter_cons, filter_cons, ih]

end Stable

section Merge

variable [IsTrans α r] [Std.Total r]

theorem merge_orderedInsert (x : α) (as bs : List α) :
    (as.orderedInsert r x).merge bs (r · ·) = (as.merge bs (r · ·)).orderedInsert r x := by
  induction as generalizing bs with
  | nil =>
    induction bs with
    | nil => simp
    | cons b bs ih =>
      simp only [nil_merge, orderedInsert_nil] at ih ⊢
      by_cases hxb : r x b
      · simp [hxb]
      · simp [hxb, ih]
  | cons a as iha =>
    induction bs with
    | nil => simp
    | cons b bs ihb =>
      by_cases hxa : r x a
      · rw [orderedInsert_cons_of_le r as hxa] at ihb ⊢
        by_cases hxb : r x b
        · by_cases hab : r a b
          · simp [hxb, hab, hxa]
          · simp [hxb, hab]
        · have hab : ¬r a b := fun hab => hxb (IsTrans.trans x a b hxa hab)
          simp [hxb, hab, ihb]
      · rw [orderedInsert_of_not_le r as hxa] at ihb ⊢
        by_cases hab : r a b
        · simp [hab, hxa, iha]
        · have hax : r a x := (Std.Total.total a x).resolve_right hxa
          have hxb : ¬r x b := fun hxb => hab (IsTrans.trans a x b hax hxb)
          simp [hab, hxb, ihb]

theorem merge_insertionSort (as bs : List α) :
    (as.insertionSort r).merge (bs.insertionSort r) (r · ·) = (as ++ bs).insertionSort r := by
  induction as with
  | nil => simp
  | cons a as ih => rw [insertionSort_cons, merge_orderedInsert, ih, cons_append,
    insertionSort_cons]

end Merge

section Runs

/-- Each stretch of `w` elements sorted by itself; the last may be shorter. -/
def runs (w : ℕ) (l : List α) : List α :=
  if _h : 0 < w ∧ 0 < l.length then (l.take w).insertionSort r ++ runs w (l.drop w) else l
termination_by l.length
decreasing_by
  rw [length_drop]
  omega

/-- Neighbouring stretches of `w` elements merged, two by two. -/
def mergePairs (w : ℕ) (l : List α) : List α :=
  if _h : 0 < w ∧ 0 < l.length then
    (l.take w).merge ((l.drop w).take w) (r · ·) ++ mergePairs w (l.drop (2 * w))
  else l
termination_by l.length
decreasing_by
  rw [length_drop]
  omega

theorem runs_nil (w : ℕ) : runs r w [] = [] := by
  rw [runs, dif_neg (by simp)]

theorem runs_of_pos {w : ℕ} (hw : 0 < w) (l : List α) :
    runs r w l = (l.take w).insertionSort r ++ runs r w (l.drop w) := by
  rw [runs]
  split_ifs with h
  · rfl
  · obtain rfl : l = [] := by simpa [hw] using h
    simp [runs_nil]

theorem mergePairs_nil (w : ℕ) : mergePairs r w [] = [] := by
  rw [mergePairs, dif_neg (by simp)]

theorem mergePairs_of_pos {w : ℕ} (hw : 0 < w) (l : List α) :
    mergePairs r w l
      = (l.take w).merge ((l.drop w).take w) (r · ·) ++ mergePairs r w (l.drop (2 * w)) := by
  rw [mergePairs]
  split_ifs with h
  · rfl
  · obtain rfl : l = [] := by simpa [hw] using h
    simp [mergePairs_nil]

theorem runs_one (l : List α) : runs r 1 l = l := by
  induction l with
  | nil => exact runs_nil r 1
  | cons a l ih =>
    rw [runs_of_pos r one_pos, drop_one, tail_cons, ih]
    rfl

theorem runs_of_length_le {w : ℕ} (hw : 0 < w) {l : List α} (h : l.length ≤ w) :
    runs r w l = l.insertionSort r := by
  rw [runs_of_pos r hw, take_of_length_le h, drop_of_length_le h, runs_nil, append_nil]

theorem length_runs {w : ℕ} (hw : 0 < w) (l : List α) : (runs r w l).length = l.length := by
  induction hn : l.length using Nat.strong_induction_on generalizing l with
  | _ n ih =>
    by_cases hl : l.length = 0
    · obtain rfl := length_eq_zero_iff.1 hl
      rw [runs_nil, hl, ← hn]
      rfl
    · rw [runs_of_pos r hw, length_append, length_insertionSort,
        ih _ (by rw [length_drop]; omega) _ rfl,
        ← length_append, take_append_drop, hn]

theorem take_runs {w : ℕ} (hw : 0 < w) (l : List α) :
    (runs r w l).take w = (l.take w).insertionSort r := by
  by_cases h : w ≤ l.length
  · rw [runs_of_pos r hw, take_left' (by rw [length_insertionSort, length_take_of_le h])]
  · have hle : l.length ≤ w := (not_le.1 h).le
    rw [take_of_length_le (by rwa [length_runs r hw]), runs_of_length_le r hw hle,
      take_of_length_le hle]

theorem drop_runs {w : ℕ} (hw : 0 < w) (l : List α) :
    (runs r w l).drop w = runs r w (l.drop w) := by
  by_cases h : w ≤ l.length
  · rw [runs_of_pos r hw, drop_left' (by rw [length_insertionSort, length_take_of_le h])]
  · have hle : l.length ≤ w := (not_le.1 h).le
    rw [drop_of_length_le (by rwa [length_runs r hw]), drop_of_length_le hle, runs_nil]

variable [IsTrans α r] [Std.Total r]

/-- A pass doubles the width. -/
theorem mergePairs_runs {w : ℕ} (hw : 0 < w) (l : List α) :
    mergePairs r w (runs r w l) = runs r (2 * w) l := by
  induction hn : l.length using Nat.strong_induction_on generalizing l with
  | _ n ih =>
    by_cases hl : l.length = 0
    · obtain rfl := length_eq_zero_iff.1 hl
      rw [runs_nil, runs_nil, mergePairs_nil]
    · have hrest : (runs r w l).drop (2 * w) = runs r w (l.drop (2 * w)) := by
        rw [Nat.two_mul, ← drop_drop, drop_runs r hw, drop_runs r hw, drop_drop]
      rw [mergePairs_of_pos r hw, drop_runs r hw, take_runs r hw, take_runs r hw,
        merge_insertionSort, hrest, ih _ (by rw [length_drop]; omega) _ rfl,
        runs_of_pos r (Nat.mul_pos Nat.two_pos hw) l, Nat.two_mul, take_add]

end Runs

end BonsaiChain.Lib
