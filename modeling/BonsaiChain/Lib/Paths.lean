import Mathlib.Data.List.Induction

/-!
# Paths of a machine that may refuse

The labels of the steps a relation allows one after another. A path may be cut at any label, and a
machine that can follow every step of another follows every path of it.
-/

namespace BonsaiChain.Lib

variable {σ τ ε : Type*}

/-- The labels from `s` on, oldest first. -/
inductive Path (R : σ → ε → σ → Prop) (s : σ) : List ε → σ → Prop
  | nil : Path R s [] s
  | snoc {es : List ε} {e : ε} {t u : σ} (h : Path R s es t) (hstep : R t e u) :
    Path R s (es ++ [e]) u

namespace Path

variable {R : σ → ε → σ → Prop} {S : τ → ε → τ → Prop} {s t : σ} {es : List ε}

theorem single {e : ε} (h : R s e t) : Path R s [e] t := .snoc .nil h

theorem eq_of_nil (h : Path R s [] t) : t = s := by
  generalize hall : ([] : List ε) = all at h
  cases h with
  | nil => rfl
  | snoc h he => simp at hall

theorem snoc_iff {e : ε} : Path R s (es ++ [e]) t ↔ ∃ u, Path R s es u ∧ R u e t := by
  constructor
  · intro h
    generalize hall : es ++ [e] = all at h
    cases h with
    | nil => simp at hall
    | snoc h he =>
      obtain ⟨rfl, he'⟩ := List.append_inj' hall rfl
      obtain rfl := List.singleton_inj.mp he'
      exact ⟨_, h, he⟩
  · rintro ⟨u, h, he⟩
    exact h.snoc he

theorem map {f : σ → τ} (hstep : ∀ t e u, R t e u → S (f t) e (f u)) (h : Path R s es t) :
    Path S (f s) es (f t) := by
  induction h with
  | nil => exact .nil
  | snoc _ he ih => exact ih.snoc (hstep _ _ _ he)

theorem append {fs : List ε} {u : σ} (h : Path R s es t) (h' : Path R t fs u) :
    Path R s (es ++ fs) u := by
  induction h' with
  | nil => simpa using h
  | snoc _ hstep ih =>
    rw [← List.append_assoc]
    exact ih.snoc hstep

/-- A path through a label. -/
theorem split {pre post : List ε} {e : ε} (h : Path R s (pre ++ e :: post) t) :
    ∃ u v, Path R s pre u ∧ R u e v ∧ Path R v post t := by
  induction post using List.reverseRecOn generalizing t with
  | nil =>
    obtain ⟨u, hpre, he⟩ := snoc_iff.mp h
    exact ⟨u, t, hpre, he, .nil⟩
  | append_singleton post f ih =>
    rw [← List.cons_append, ← List.append_assoc, snoc_iff] at h
    obtain ⟨w, h, hf⟩ := h
    obtain ⟨u, v, hpre, he, hpost⟩ := ih h
    exact ⟨u, v, hpre, he, hpost.snoc hf⟩

theorem head {e : ε} (h : Path R s (e :: es) t) : ∃ u, R s e u ∧ Path R u es t := by
  obtain ⟨_, u, hnil, he, hpost⟩ := @split _ _ _ _ _ [] _ _ h
  obtain rfl := hnil.eq_of_nil
  exact ⟨u, he, hpost⟩

/-- A machine follows the paths of a machine whose steps it follows. -/
theorem simulates (rel : σ → τ → Prop) {Q : ε → Prop}
    (hstep : ∀ t e u x, rel t x → Q e → R t e u → ∃ y, S x e y ∧ rel u y) (h : Path R s es t)
    (hes : ∀ e ∈ es, Q e) {x : τ} (hs : rel s x) : ∃ y, Path S x es y ∧ rel t y := by
  induction h with
  | nil => exact ⟨x, .nil, hs⟩
  | snoc _ he ih =>
    rw [List.forall_mem_append, List.forall_mem_singleton] at hes
    obtain ⟨y, hpath, hrel⟩ := ih hes.1
    obtain ⟨z, hyz, hz⟩ := hstep _ _ _ y hrel hes.2 he
    exact ⟨z, .snoc hpath hyz, hz⟩

end Path

end BonsaiChain.Lib
