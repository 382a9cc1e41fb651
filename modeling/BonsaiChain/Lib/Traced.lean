import BonsaiChain.Lib.Paths

/-!
# Programs that leave a trace

What a program does, in order, and what it returns, if it does return: one that is stopped has done
the first few of its effects. `Obeys` is the rule of reasoning about them, an automaton that takes
each effect, with what is true of the state and the result at the end.
-/

namespace BonsaiChain.Lib

universe u

structure Traced (ε : Type*) (α : Type u) where
  effects : List ε
  result : Option α

namespace Traced

variable {ε σ : Type*} {α β : Type u}

def emit (e : ε) : Traced ε PUnit := ⟨[e], some ⟨⟩⟩

instance : Monad (Traced ε) where
  pure a := ⟨[], some a⟩
  bind x f :=
    match x.result with
    | none => ⟨x.effects, none⟩
    | some a => ⟨x.effects ++ (f a).effects, (f a).result⟩

/-- From `s` the automaton takes every effect, and `Q` is true where the program returns. -/
def Obeys (R : σ → ε → σ → Prop) (s : σ) (x : Traced ε α) (Q : α → σ → Prop) : Prop :=
  ∃ t, Path R s x.effects t ∧ ∀ a, x.result = some a → Q a t

variable {R : σ → ε → σ → Prop} {s t : σ} {x : Traced ε α} {f : α → Traced ε β} {a : α} {e : ε}
  {Q Q' : α → σ → Prop} {P : β → σ → Prop}

theorem Obeys.pure (h : Q a s) : Obeys R s (pure a) Q :=
  ⟨s, .nil, fun _ ha => Option.some.inj ha ▸ h⟩

/-- A program that has not returned. -/
theorem Obeys.running : Obeys R s (⟨[], none⟩ : Traced ε α) Q := ⟨s, .nil, nofun⟩

theorem Obeys.emit {Q : PUnit → σ → Prop} (h : R s e t) (hQ : Q ⟨⟩ t) :
    Obeys R s (emit e) Q :=
  ⟨t, Path.single h, fun _ _ => hQ⟩

theorem Obeys.mono (h : Obeys R s x Q) (hQ : ∀ a t, Q a t → Q' a t) : Obeys R s x Q' := by
  obtain ⟨t, hpath, hres⟩ := h
  exact ⟨t, hpath, fun a ha => hQ a t (hres a ha)⟩

theorem Obeys.bind (h : Obeys R s x Q) (hf : ∀ a t, Q a t → Obeys R t (f a) P) :
    Obeys R s (x >>= f) P := by
  obtain ⟨t, hpath, hres⟩ := h
  show Obeys R s (match x.result with
    | none => ⟨x.effects, none⟩
    | some a => ⟨x.effects ++ (f a).effects, (f a).result⟩) P
  rcases hr : x.result with _ | a
  · exact ⟨t, hpath, nofun⟩
  · obtain ⟨u, hpath', hres'⟩ := hf a t (hres a hr)
    exact ⟨u, hpath.append hpath', hres'⟩

/-- Where a program is stopped the automaton has taken what it did. -/
theorem Obeys.stopped {es : List ε} (h : Obeys R s x Q) (hes : es <+: x.effects) :
    ∃ t, Path R s es t := by
  obtain ⟨t, hpath, -⟩ := h
  obtain ⟨rest, heq⟩ := hes
  rw [← heq] at hpath
  rcases rest with _ | ⟨e, rest⟩
  · exact ⟨t, by simpa using hpath⟩
  · obtain ⟨u, _, hpre, -⟩ := hpath.split
    exact ⟨u, hpre⟩

end Traced

end BonsaiChain.Lib
