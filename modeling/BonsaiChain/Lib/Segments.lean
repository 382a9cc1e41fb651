import Mathlib.Data.List.Infix

/-!
# Lists cut at a separator

The pieces between the separators of a list, the tails of the list of pieces, and what starts them
when they are joined again.
-/

namespace BonsaiChain.Lib

variable {α : Type*} {sep : α}

theorem not_mem_of_mem_splitOn [BEq α] [LawfulBEq α] {l piece : List α}
    (h : piece ∈ l.splitOn sep) : sep ∉ piece := by
  induction l generalizing piece with
  | nil =>
    rw [List.splitOn_nil, List.mem_singleton] at h
    simp [h]
  | cons a l ih =>
    rw [List.splitOn_cons_eq_if_modifyHead] at h
    split_ifs at h with ha
    · rcases List.mem_cons.1 h with rfl | h
      · simp
      · exact ih h
    · obtain ⟨first, more, hs⟩ := List.exists_cons_of_ne_nil (List.splitOn_ne_nil sep l)
      rw [hs, List.modifyHead_cons, List.mem_cons] at h
      have hne : sep ≠ a := fun he => ha (by simp [he])
      rcases h with rfl | h
      · have hfirst : sep ∉ first := ih (by simp [hs])
        simp [hne, hfirst]
      · exact ih (by simp [hs, h])

variable {a b q r x : List α} {t : List (List α)}

/-- The first separator of a list is in one place. -/
theorem append_sep_inj (ha : sep ∉ a) (hb : sep ∉ b) :
    a ++ sep :: q = b ++ sep :: r ↔ a = b ∧ q = r := by
  constructor
  · intro h
    rcases List.append_eq_append_iff.1 h with ⟨m, rfl, hm⟩ | ⟨m, rfl, hm⟩
    · cases m with
      | nil => simpa using hm
      | cons c m => simp [(List.cons.inj hm).1] at hb
    · cases m with
      | nil => simpa [eq_comm] using hm
      | cons c m => simp [(List.cons.inj hm).1] at ha
  · rintro ⟨rfl, rfl⟩
    rfl

/-- What has no separator starts the joined pieces if it starts the first of them. -/
theorem prefix_intercalate_iff (hq : sep ∉ q) : q <+: [sep].intercalate (x :: t) ↔ q <+: x := by
  by_cases ht : t = []
  · simp [ht, List.intercalate_singleton]
  · rw [List.intercalate_cons_of_ne_nil ht, List.append_assoc, List.singleton_append]
    constructor
    · intro h
      rcases List.prefix_or_prefix_of_prefix h (List.prefix_append x _) with h' | ⟨r, rfl⟩
      · exact h'
      · rw [List.prefix_append_right_inj] at h
        cases r with
        | nil => simp
        | cons b r =>
          obtain rfl : b = sep := (List.cons_prefix_cons.1 h).1
          simp at hq
    · exact fun h => h.trans (List.prefix_append _ _)

/-- A piece and a separator start the joined pieces if the piece is the first of them and there are
more. -/
theorem prefix_intercalate_cons_iff (ha : sep ∉ a) (hx : sep ∉ x) :
    a ++ sep :: q <+: [sep].intercalate (x :: t) ↔ x = a ∧ t ≠ [] ∧ q <+: [sep].intercalate t := by
  by_cases ht : t = []
  · simp only [ht, List.intercalate_singleton, ne_eq, not_true_eq_false, false_and, and_false,
      iff_false]
    exact fun h => hx (h.subset (by simp))
  · rw [List.intercalate_cons_of_ne_nil ht, List.append_assoc, List.singleton_append]
    constructor
    · intro h
      obtain ⟨rest, hrest⟩ := h
      rw [List.append_assoc, List.cons_append] at hrest
      obtain ⟨rfl, h⟩ := (append_sep_inj ha hx).1 hrest
      exact ⟨rfl, ht, rest, h⟩
    · rintro ⟨rfl, -, h⟩
      exact (List.prefix_append_right_inj x).2 (List.cons_prefix_cons.2 ⟨rfl, h⟩)

end BonsaiChain.Lib
