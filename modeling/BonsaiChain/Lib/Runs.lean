import Mathlib.Data.Int.Order.Basic
import Mathlib.Data.List.Basic

/-!
# Runs of a machine

The state a deterministic machine is in after a list of events, with the two rules every fact about
runs comes from: what every step keeps holds in every state, and a reflexive and transitive relation
that every step respects relates every state to the later ones.
-/

namespace BonsaiChain.Lib

variable {σ ε : Type*}

/-- The state after the events, in order. -/
def run (step : σ → ε → σ) (s : σ) (es : List ε) : σ := es.foldl step s

variable {step : σ → ε → σ} {s : σ}

@[simp] theorem run_nil : run step s [] = s := rfl

@[simp] theorem run_cons (e : ε) (es : List ε) : run step s (e :: es) = run step (step s e) es :=
  rfl

theorem run_append (es fs : List ε) : run step s (es ++ fs) = run step (run step s es) fs :=
  List.foldl_append

theorem run_snoc (es : List ε) (e : ε) : run step s (es ++ [e]) = step (run step s es) e := by
  rw [run_append, run_cons, run_nil]

/-- What every step keeps holds after every list of events whose events it is kept by. -/
theorem run_inv {I : σ → Prop} {P : ε → Prop} (hstep : ∀ s e, P e → I s → I (step s e)) :
    ∀ (es : List ε) (s : σ), (∀ e ∈ es, P e) → I s → I (run step s es)
  | [], _, _, hs => hs
  | e :: es, s, hes, hs => by
    have hs' := hstep s e (hes e (List.mem_cons_self ..)) hs
    exact run_inv hstep es _ (fun e' he' => hes e' (List.mem_cons_of_mem _ he')) hs'

/-- A reflexive and transitive relation that every step respects. -/
theorem run_rel {R : σ → σ → Prop} (hrefl : ∀ s, R s s) (htrans : ∀ a b c, R a b → R b c → R a c)
    (hstep : ∀ s e, R s (step s e)) : ∀ (es : List ε) (s : σ), R s (run step s es)
  | [], s => hrefl s
  | e :: es, s => htrans _ _ _ (hstep s e) (run_rel hrefl htrans hstep es (step s e))

end BonsaiChain.Lib
