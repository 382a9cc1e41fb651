import Mathlib.Logic.Relation
import Mathlib.Order.Basic
import Mathlib.Tactic.ByContra

/-!
# Bounded loops and deterministic walks

A lap of a loop either ends it with a result or hands on the next state. `loop` runs at most a
given number of laps whose body may depend on the lap; its outcome is characterised by the states
it reaches. `Halts` is the walk without a bound, for a body that does not depend on the lap.
-/

namespace BonsaiChain.Lib

open Relation

variable {α β : Type*}

section Bounded

/-- Run at most `n` laps from lap `i` on: the result, or the state in which the bound was hit. -/
def loop (body : ℕ → α → β ⊕ α) : ℕ → ℕ → α → β ⊕ α
  | 0, _, a => .inr a
  | n + 1, i, a =>
    match body i a with
    | .inl b => .inl b
    | .inr a' => loop body n (i + 1) a'

/-- Lap `i` starts in `a`, and no lap ends the loop before lap `j`, which starts in `a'`. -/
inductive Reaches (body : ℕ → α → β ⊕ α) : ℕ → α → ℕ → α → Prop
  | refl (i : ℕ) (a : α) : Reaches body i a i a
  | head {i j : ℕ} {a a' a'' : α} (h : body i a = .inr a') (t : Reaches body (i + 1) a' j a'') :
      Reaches body i a j a''

variable {body body' : ℕ → α → β ⊕ α} {i j k n : ℕ} {a a' a'' : α} {b : β}

theorem Reaches.le (h : Reaches body i a j a') : i ≤ j := by
  induction h with
  | refl => exact Nat.le_refl _
  | head _ _ ih => omega

theorem Reaches.trans (h : Reaches body i a j a') (t : Reaches body j a' k a'') :
    Reaches body i a k a'' := by
  induction h with
  | refl => exact t
  | head hstep _ ih => exact .head hstep (ih t)

theorem Reaches.snoc (h : Reaches body i a j a') (hstep : body j a' = .inr a'') :
    Reaches body i a (j + 1) a'' :=
  h.trans (.head hstep (.refl _ _))

/-- A reached lap is the first one or follows from the one after it. -/
theorem Reaches.cases_head (h : Reaches body i a j a'') :
    (i = j ∧ a = a'') ∨ ∃ a', body i a = .inr a' ∧ Reaches body (i + 1) a' j a'' := by
  cases h with
  | refl => exact .inl ⟨rfl, rfl⟩
  | head hstep t => exact .inr ⟨_, hstep, t⟩

theorem Reaches.eq_of_self (h : Reaches body i a i a') : a = a' := by
  rcases h.cases_head with ⟨-, rfl⟩ | ⟨_, -, t⟩
  · rfl
  · have := t.le
    omega

/-- Of two reached laps, the later one is reached from the earlier one. -/
theorem Reaches.of_le (h : Reaches body i a j a') (t : Reaches body i a k a'') (hjk : j ≤ k) :
    Reaches body j a' k a'' := by
  induction h with
  | refl => exact t
  | @head i j a x a' hstep h ih =>
    rcases t.cases_head with ⟨rfl, rfl⟩ | ⟨y, hstep', t'⟩
    · have := h.le
      omega
    · obtain rfl : x = y := by simpa [hstep] using hstep'
      exact ih t' hjk

theorem Reaches.unique (h : Reaches body i a j a') (t : Reaches body i a j a'') : a' = a'' :=
  (h.of_le t (Nat.le_refl j)).eq_of_self

/-- No lap is reached past one that ends the loop. -/
theorem Reaches.le_of_end (h : Reaches body i a j a') (hend : body j a' = .inl b)
    (t : Reaches body i a k a'') : k ≤ j := by
  by_contra hlt
  rcases (h.of_le t (by omega)).cases_head with ⟨rfl, -⟩ | ⟨_, hstep, -⟩
  · omega
  · rw [hend] at hstep
    cases hstep

/-- Every lap before a reached one is reached. -/
theorem Reaches.exists_of_le (h : Reaches body i a k a'') (hij : i ≤ j) (hjk : j ≤ k) :
    ∃ a', Reaches body i a j a' := by
  induction h with
  | refl i a =>
    obtain rfl : i = j := by omega
    exact ⟨a, .refl _ _⟩
  | @head i k a x _ hstep _ ih =>
    rcases Nat.eq_or_lt_of_le hij with rfl | hlt
    · exact ⟨a, .refl _ _⟩
    · obtain ⟨a', h⟩ := ih hlt hjk
      exact ⟨a', .head hstep h⟩

/-- A loop whose transitions are simulated through `f` reaches the images of its states. -/
theorem Reaches.map {α' β' : Type*} {body' : ℕ → α' → β' ⊕ α'} (f : α → α')
    (h : ∀ i a a', body i a = .inr a' → body' i (f a) = .inr (f a'))
    (t : Reaches body i a j a') : Reaches body' i (f a) j (f a') := by
  induction t with
  | refl => exact .refl _ _
  | head hstep _ ih => exact .head (h _ _ _ hstep) ih

/-- A loop that simulates every transition through `f` reaches a preimage of every state. -/
theorem Reaches.lift {α' β' : Type*} {body' : ℕ → α' → β' ⊕ α'} (f : α → α')
    (h : ∀ i a x, body' i (f a) = .inr x → ∃ a', body i a = .inr a' ∧ f a' = x) {x : α'}
    (t : Reaches body' i (f a) j x) : ∃ a', Reaches body i a j a' ∧ f a' = x := by
  generalize hy : f a = y at t
  induction t generalizing a with
  | refl => exact ⟨a, .refl _ _, hy⟩
  | head hstep _ ih =>
    subst hy
    obtain ⟨a', hstep', hf⟩ := h _ _ _ hstep
    obtain ⟨a'', ht, hx⟩ := ih hf
    exact ⟨a'', .head hstep' ht, hx⟩

/-- The loop ends with the result of the reached lap that ends it. -/
theorem loop_eq_inl : ∀ {n i : ℕ} {a : α}, loop body n i a = .inl b ↔
    ∃ j a', j < i + n ∧ Reaches body i a j a' ∧ body j a' = .inl b
  | 0, i, a => by
    simp only [loop, reduceCtorEq, false_iff, not_exists, not_and]
    intro j a' hj h
    have := h.le
    omega
  | n + 1, i, a => by
    rw [loop]
    cases hstep : body i a with
    | inl b' =>
      simp only [Sum.inl.injEq]
      constructor
      · rintro rfl
        exact ⟨i, a, by omega, .refl _ _, hstep⟩
      · rintro ⟨j, a', -, h, hend⟩
        rcases h.cases_head with ⟨rfl, rfl⟩ | ⟨_, hstep', -⟩
        · rw [hstep] at hend
          simpa using hend
        · rw [hstep] at hstep'
          cases hstep'
    | inr x =>
      simp only [loop_eq_inl]
      constructor
      · rintro ⟨j, a', hj, h, hend⟩
        exact ⟨j, a', by omega, .head hstep h, hend⟩
      · rintro ⟨j, a', hj, h, hend⟩
        rcases h.cases_head with ⟨rfl, rfl⟩ | ⟨y, hstep', t⟩
        · rw [hstep] at hend
          cases hend
        · obtain rfl : x = y := by simpa [hstep] using hstep'
          exact ⟨j, a', by omega, t, hend⟩

/-- The loop hits its bound in the state that starts the lap after the last one. -/
theorem loop_eq_inr : ∀ {n i : ℕ} {a : α}, loop body n i a = .inr a' ↔
    Reaches body i a (i + n) a'
  | 0, i, a => by
    simp only [loop, Sum.inr.injEq, Nat.add_zero]
    constructor
    · rintro rfl
      exact .refl _ _
    · exact Reaches.eq_of_self
  | n + 1, i, a => by
    rw [loop, ← Nat.add_assoc, Nat.add_right_comm]
    cases hstep : body i a with
    | inl b' =>
      simp only [reduceCtorEq, false_iff]
      intro h
      rcases h.cases_head with ⟨h, -⟩ | ⟨_, hstep', -⟩
      · omega
      · rw [hstep] at hstep'
        cases hstep'
    | inr x =>
      simp only [loop_eq_inr]
      constructor
      · exact .head hstep
      · intro h
        rcases h.cases_head with ⟨h, -⟩ | ⟨y, hstep', t⟩
        · omega
        · obtain rfl : x = y := by simpa [hstep] using hstep'
          exact t

end Bounded

section Unbounded

/-- The walk goes on from `a` to `a'`. -/
def Next (step : α → β ⊕ α) (a a' : α) : Prop := step a = .inr a'

/-- The walk from `a` ends with `b`. -/
def Halts (step : α → β ⊕ α) (a : α) (b : β) : Prop :=
  ∃ a', ReflTransGen (Next step) a a' ∧ step a' = .inl b

variable {step step' : α → β ⊕ α} {a a' a'' : α} {b b' : β}

theorem next_rightUnique : Relator.RightUnique (Next step) := by
  intro a x y hx hy
  unfold Next at hx hy
  simpa [hx] using hy

theorem not_next_of_end (h : step a = .inl b) : ¬ Next step a a' := by
  unfold Next
  simp [h]

theorem halts_of_end (h : step a = .inl b) : Halts step a b := ⟨a, .refl, h⟩

/-- A prefix of the walk changes nothing about where it ends. -/
theorem halts_iff_of_reaches (h : ReflTransGen (Next step) a a') :
    Halts step a b ↔ Halts step a' b := by
  constructor
  · rintro ⟨x, hx, hend⟩
    rcases h.total_of_right_unique next_rightUnique hx with h' | h'
    · exact ⟨x, h', hend⟩
    · rcases h'.cases_head with rfl | ⟨_, hn, -⟩
      · exact ⟨x, .refl, hend⟩
      · exact absurd hn (not_next_of_end hend)
  · rintro ⟨x, hx, hend⟩
    exact ⟨x, h.trans hx, hend⟩

theorem Halts.eq_of_end (h : Halts step a b) (hend : step a = .inl b') : b = b' := by
  obtain ⟨x, hx, hend'⟩ := h
  rcases hx.cases_head with rfl | ⟨_, hn, -⟩
  · simpa [hend] using hend'.symm
  · exact absurd hn (not_next_of_end hend)

theorem Halts.unique (h : Halts step a b) (h' : Halts step a b') : b = b' := by
  obtain ⟨x, hx, hend⟩ := h'
  exact ((halts_iff_of_reaches hx).mp h).eq_of_end hend

theorem reaches_mono (h : ∀ a a', Next step a a' → Next step' a a')
    (t : ReflTransGen (Next step) a a') : ReflTransGen (Next step') a a' :=
  ReflTransGen.mono h _ _ t

/-- A walk that keeps every transition and the ends with `b` keeps the walks that end with `b`. -/
theorem Halts.mono (h : ∀ a a', Next step a a' → Next step' a a')
    (hend : ∀ a, step a = .inl b → step' a = .inl b) (t : Halts step a b) : Halts step' a b := by
  obtain ⟨x, hx, he⟩ := t
  exact ⟨x, reaches_mono h hx, hend x he⟩

end Unbounded

end BonsaiChain.Lib
