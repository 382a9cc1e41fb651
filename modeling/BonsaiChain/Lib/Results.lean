import Mathlib.Data.List.Basic
import Mathlib.Tactic.SplitIfs

/-!
# Computations that may fail

When a computation in `Except` succeeds, step by step. A call that may fail and works on a value its
caller keeps leaves there what it wrote before it failed.
-/

namespace BonsaiChain.Lib

section Results

universe u

variable {ε : Type*} {α β : Type u}

theorem bind_eq_ok {x : Except ε α} {f : α → Except ε β} {b : β} :
    x >>= f = .ok b ↔ ∃ a, x = .ok a ∧ f a = .ok b := by
  cases x with
  | error e => simp [bind, Except.bind]
  | ok a => simp [bind, Except.bind]

theorem ok_bind (a : α) (f : α → Except ε β) : (.ok a : Except ε α) >>= f = f a := rfl

theorem throw_bind (e : ε) (f : α → Except ε β) :
    (throw e : Except ε α) >>= f = .error e := rfl

theorem pure_eq_ok {a b : α} : (pure a : Except ε α) = .ok b ↔ a = b := by
  simp [pure, Except.pure]

/-- A guard that throws lets through exactly the runs in which it does not fire. -/
theorem guard_eq_ok {p : Prop} [Decidable p] {e : ε} {f : α → Except ε β} {x : Except ε β} {b : β} :
    (if p then throw e >>= f else x) = .ok b ↔ ¬p ∧ x = .ok b := by
  split_ifs with h
  · simp [h, throw, throwThe, MonadExceptOf.throw, bind, Except.bind]
  · simp [h]

/-- The same with the error as the branch's value. -/
theorem error_ite_eq_ok {p : Prop} [Decidable p] {e : ε} {x : Except ε β} {b : β} :
    (if p then .error e else x) = .ok b ↔ ¬p ∧ x = .ok b := by
  split_ifs with h
  · simp [h]
  · simp [h]

theorem toOption_eq_some {x : Except ε α} {a : α} : x.toOption = some a ↔ x = .ok a := by
  cases x <;> simp [Except.toOption]

/-- Whether a computation succeeds with a result of some kind can be tested by running it. -/
instance decidableExistsOk {x : Except ε α} {p : α → Prop} [DecidablePred p] :
    Decidable (∃ a, x = .ok a ∧ p a) :=
  match x with
  | .ok a => decidable_of_iff (p a) (by simp)
  | .error _ => .isFalse (by simp)

end Results

section InPlace

variable {ε σ α β : Type}

/-- What the call returns on the value, and the value as it leaves it. -/
def callOn (m : ExceptT ε (StateM σ) α) (s : σ) : Except ε α × σ := m.run.run s

variable {s : σ}

@[simp] theorem callOn_get_bind (f : σ → ExceptT ε (StateM σ) β) :
    callOn (get >>= f) s = callOn (f s) s := rfl

@[simp] theorem callOn_throw (e : ε) :
    callOn (throw e : ExceptT ε (StateM σ) α) s = (.error e, s) := rfl

@[simp] theorem callOn_throw_bind (e : ε) (f : α → ExceptT ε (StateM σ) β) :
    callOn ((throw e : ExceptT ε (StateM σ) α) >>= f) s = (.error e, s) := rfl

@[simp] theorem callOn_lift_error_bind (e : ε) (f : α → ExceptT ε (StateM σ) β) :
    callOn ((liftM (.error e : Except ε α) : ExceptT ε (StateM σ) α) >>= f) s = (.error e, s) := rfl

@[simp] theorem callOn_lift_ok_bind (a : α) (f : α → ExceptT ε (StateM σ) β) :
    callOn ((liftM (.ok a : Except ε α) : ExceptT ε (StateM σ) α) >>= f) s = callOn (f a) s := rfl

@[simp] theorem callOn_modify (f : σ → σ) :
    callOn (modify f : ExceptT ε (StateM σ) PUnit) s = (.ok ⟨⟩, f s) := rfl

/-- A check in a call decides which call it is. -/
@[simp] theorem callOn_ite (p : Prop) [Decidable p] (m m' : ExceptT ε (StateM σ) α) :
    callOn (if p then m else m') s = if p then callOn m s else callOn m' s := by
  split_ifs <;> rfl

end InPlace

end BonsaiChain.Lib
