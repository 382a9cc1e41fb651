import Mathlib.Data.List.Forall2
import Mathlib.Data.Set.Function

/-!
# Chains of hashes

A chain starts from a value and goes through a list of nodes: a node is skipped, or the value so far
is written into a text with it, and the text is hashed. Where the texts tell their parts apart and
the hash tells the texts apart, two chains over nodes of one shape that end alike started alike.
-/

namespace BonsaiChain.Lib

variable {σ ν τ : Type*}

section Chain

variable (hash : τ → σ) (skip : ν → Prop) [DecidablePred skip] (text : σ → ν → τ)

def chainStep (value : σ) (node : ν) : σ := if skip node then value else hash (text value node)

/-- The texts that are hashed on the way. -/
def chainTexts (value : σ) : List ν → List τ
  | [] => []
  | node :: nodes =>
    if skip node then chainTexts value nodes
    else text value node :: chainTexts (hash (text value node)) nodes

variable {hash skip text} {R Q : ν → ν → Prop}

theorem exists_of_mem_chainTexts {t : τ} {nodes : List ν} {value : σ}
    (h : t ∈ chainTexts hash skip text value nodes) : ∃ v n, t = text v n := by
  induction nodes generalizing value with
  | nil => simp [chainTexts] at h
  | cons node nodes ih =>
    unfold chainTexts at h
    split_ifs at h
    · exact ih h
    · rcases List.mem_cons.1 h with rfl | h
      · exact ⟨value, node, rfl⟩
      · exact ih h

/-- Two chains over nodes of one shape end alike only if they start alike and go alike where they do
not skip. -/
theorem chain_binding (hskip : ∀ n n', R n n' → (skip n ↔ skip n'))
    (htext : ∀ n n' v v', R n n' → ¬skip n → text v n = text v' n' → v = v' ∧ Q n n')
    {nodes nodes' : List ν} (hshape : List.Forall₂ R nodes nodes') {value value' : σ}
    (hinj : Set.InjOn hash {t | t ∈ chainTexts hash skip text value nodes
      ∨ t ∈ chainTexts hash skip text value' nodes'})
    (hend : nodes.foldl (chainStep hash skip text) value
      = nodes'.foldl (chainStep hash skip text) value') :
    value = value' ∧ List.Forall₂ (fun n n' => ¬skip n → Q n n') nodes nodes' := by
  induction hshape generalizing value value' with
  | nil => exact ⟨hend, .nil⟩
  | @cons n n' nodes nodes' hn _ ih =>
    simp only [List.foldl_cons, chainStep] at hend
    by_cases hs : skip n
    · have hs' : skip n' := (hskip n n' hn).1 hs
      rw [if_pos hs, if_pos hs'] at hend
      simp only [chainTexts, if_pos hs, if_pos hs'] at hinj
      obtain ⟨hvalue, hrest⟩ := ih hinj hend
      exact ⟨hvalue, .cons (fun h => absurd hs h) hrest⟩
    · have hs' : ¬skip n' := fun h => hs ((hskip n n' hn).2 h)
      rw [if_neg hs, if_neg hs'] at hend
      simp only [chainTexts, if_neg hs, if_neg hs', List.mem_cons] at hinj
      -- the chains agree behind this node, so its two texts have one hash
      obtain ⟨hnext, hrest⟩ := ih (hinj.mono fun t ht => ht.imp Or.inr Or.inr) hend
      obtain ⟨hvalue, hq⟩ := htext n n' value value' hn hs
        (hinj (.inl (.inl rfl)) (.inr (.inl rfl)) hnext)
      exact ⟨hvalue, .cons (fun _ => hq) hrest⟩

end Chain

end BonsaiChain.Lib
