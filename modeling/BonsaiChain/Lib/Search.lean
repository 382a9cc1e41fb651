import BonsaiChain.Lib.Loop
import Mathlib.Data.Nat.ModEq
import Mathlib.Order.Bounds.Basic

/-!
# Searching upwards in steps

A search that goes up in steps of `k` ends at the first number with a property, if it passes over
none that has it. How the steps are divided among the laps of a loop does not matter.
-/

namespace BonsaiChain.Lib

variable {P P' : ℕ → Prop} {k p q r : ℕ}

/-- `q` is some steps above `p`, and nothing passed over on the way has the property. -/
def Skips (k : ℕ) (P : ℕ → Prop) (p q : ℕ) : Prop :=
  ∃ j, q = p + k * j ∧ ∀ i < j, ¬P (p + k * i)

theorem Skips.refl : Skips k P p p := ⟨0, rfl, fun i hi => absurd hi (Nat.not_lt_zero i)⟩

theorem Skips.step (h : ¬P p) : Skips k P p (p + k) := by
  refine ⟨1, by rw [Nat.mul_one], fun i hi => ?_⟩
  obtain rfl : i = 0 := Nat.lt_one_iff.1 hi
  exact h

theorem Skips.trans (h : Skips k P p q) (t : Skips k P q r) : Skips k P p r := by
  obtain ⟨j, rfl, hj⟩ := h
  obtain ⟨l, rfl, hl⟩ := t
  refine ⟨j + l, by rw [Nat.mul_add, Nat.add_assoc], fun i hi => ?_⟩
  by_cases hij : i < j
  · exact hj i hij
  · have h := hl (i - j) (by omega)
    rwa [Nat.add_assoc, ← Nat.mul_add, show j + (i - j) = i by omega] at h

theorem Skips.mono (hP : ∀ n, P n → P' n) (h : Skips k P' p q) : Skips k P p q := by
  obtain ⟨j, rfl, hj⟩ := h
  exact ⟨j, rfl, fun i hi hn => hj i hi (hP _ hn)⟩

theorem Skips.le (h : Skips k P p q) : p ≤ q := by
  obtain ⟨j, rfl, -⟩ := h
  exact Nat.le_add_right _ _

theorem Skips.mod_eq (h : Skips k P p q) : q % k = p % k := by
  obtain ⟨j, rfl, -⟩ := h
  exact Nat.add_mul_mod_self_left _ _ _

/-- Nothing with the property that can be reached in steps is passed over. -/
theorem Skips.le_of_mem (h : Skips k P p q) (hle : p ≤ r) (hmod : r % k = p % k) (hr : P r) :
    q ≤ r := by
  obtain ⟨j, rfl, hj⟩ := h
  obtain ⟨l, hl⟩ : k ∣ r - p := (Nat.modEq_iff_dvd' hle).1 hmod.symm
  obtain rfl : r = p + k * l := by omega
  by_contra hlt
  refine hj l ?_ hr
  by_contra hjl
  have := Nat.mul_le_mul_left k (not_lt.1 hjl)
  omega

section Loops

variable {β : Type*} {body : ℕ → ℕ → β ⊕ ℕ} {b : β} {i j n top : ℕ}

/-- A loop whose laps pass over nothing passes over nothing. -/
theorem Reaches.skips (t : Reaches body i p j q)
    (h : ∀ i n n', n % k = p % k → body i n = .inr n' → Skips k P n n') : Skips k P p q := by
  induction t with
  | refl => exact .refl
  | head hstep _ ih =>
    have hskip := h _ _ _ rfl hstep
    exact hskip.trans (ih fun i n n' hn => h i n n' (hn.trans hskip.mod_eq))

/-- A loop that climbs below a top ends. -/
theorem loop_ends_below (h : ∀ i p p', p ≤ top → p % k = top % k → body i p = .inr p' →
      p < p' ∧ p' ≤ top ∧ p' % k = top % k) :
    ∀ {n i p : ℕ}, p ≤ top → p % k = top % k → top - p < n → ∃ b, loop body n i p = .inl b
  | 0, _, _, _, _, hn => absurd hn (Nat.not_lt_zero _)
  | n + 1, i, p, hle, hmod, hn => by
    rw [loop]
    rcases hstep : body i p with b | p'
    · exact ⟨b, rfl⟩
    · obtain ⟨hlt, hle', hmod'⟩ := h i p p' hle hmod hstep
      exact loop_ends_below h hle' hmod' (by omega)

end Loops

end BonsaiChain.Lib
