import Mathlib.Data.List.Basic

/-!
# Parsers that invert a printer

A parser reads a prefix of a token list and hands on what it leaves, or fails with an error. It
inverts a printer on a set of values when it succeeds on exactly the lists that start with the
print of such a value, so one statement carries both round trips, and sequencing, counting and
repetition keep it.
-/

namespace BonsaiChain.Lib

variable {ε τ α β : Type*}

/-- A parser over tokens `τ`: the value read and the tokens left, or an error. -/
abbrev Parser (ε τ : Type*) (α : Type*) := List τ → Except ε (α × List τ)

namespace Parser

/-- Read `a`, then go on with `f a` on what is left. -/
def andThen (p : Parser ε τ α) (f : α → Parser ε τ β) : Parser ε τ β := fun ts =>
  match p ts with
  | .error e => .error e
  | .ok (a, rest) => f a rest

/-- Read nothing. -/
def done (a : α) : Parser ε τ α := fun ts => .ok (a, ts)

/-- Fail with `e`. -/
def fail (e : ε) : Parser ε τ α := fun _ => .error e

/-- The first `n` tokens, or `e` when fewer are left. -/
def take (e : ε) (n : ℕ) : Parser ε τ (List τ) := fun ts =>
  if ts.length < n then .error e else .ok (ts.take n, ts.drop n)

/-- Check a condition on the tokens left, and fail with `e` otherwise. -/
def guardLeft (e : ε) (c : List τ → Bool) : Parser ε τ Unit := fun ts =>
  if c ts then .ok ((), ts) else .error e

/-- Read `n` values one after another. -/
def count (p : Parser ε τ α) : ℕ → Parser ε τ (List α)
  | 0 => done []
  | n + 1 => p.andThen fun a => (count p n).andThen fun as => done (a :: as)

/-- Run a parser on a whole list, failing with `e` when it leaves tokens. -/
def whole (e : ε) (p : Parser ε τ α) (ts : List τ) : Except ε α :=
  match p ts with
  | .error e' => .error e'
  | .ok (a, []) => .ok a
  | .ok (_, _ :: _) => .error e

@[simp] theorem andThen_eq_ok {p : Parser ε τ α} {f : α → Parser ε τ β} {ts : List τ} {b : β}
    {rest : List τ} :
    p.andThen f ts = .ok (b, rest) ↔ ∃ a mid, p ts = .ok (a, mid) ∧ f a mid = .ok (b, rest) := by
  unfold andThen
  cases h : p ts with
  | error e => simp
  | ok r => simp [Prod.ext_iff]

@[simp] theorem done_eq_ok {a b : α} {ts rest : List τ} :
    (done a : Parser ε τ α) ts = .ok (b, rest) ↔ a = b ∧ ts = rest := by
  simp [done]

@[simp] theorem fail_eq_ok {e : ε} {ts : List τ} {r : α × List τ} :
    (fail e : Parser ε τ α) ts = .ok r ↔ False := by
  simp [fail]

@[simp] theorem guardLeft_eq_ok {e : ε} {c : List τ → Bool} {ts rest : List τ} :
    guardLeft e c ts = .ok ((), rest) ↔ c ts = true ∧ ts = rest := by
  unfold guardLeft
  split_ifs with h <;> simp [h]

theorem take_eq_ok {e : ε} {n : ℕ} {ts bs rest : List τ} :
    take e n ts = .ok (bs, rest) ↔ bs.length = n ∧ ts = bs ++ rest := by
  unfold take
  split_ifs with h
  · simp only [false_iff, not_and]
    rintro rfl rfl
    rw [List.length_append] at h
    omega
  · simp only [Except.ok.injEq, Prod.mk.injEq]
    constructor
    · rintro ⟨rfl, rfl⟩
      simp; omega
    · rintro ⟨rfl, rfl⟩
      simp

theorem whole_eq_ok {e : ε} {p : Parser ε τ α} {ts : List τ} {a : α} :
    p.whole e ts = .ok a ↔ p ts = .ok (a, []) := by
  unfold whole
  rcases h : p ts with e' | ⟨b, _ | ⟨t, rest⟩⟩ <;> simp

/-- `p` inverts the printer `print` on the values `Ok` holds of: it succeeds on exactly the lists
that start with the print of such a value, and leaves the rest. -/
def Inverts (p : Parser ε τ α) (print : α → List τ) (Ok : α → Prop) : Prop :=
  ∀ ts a rest, p ts = .ok (a, rest) ↔ Ok a ∧ ts = print a ++ rest

theorem take_inverts (e : ε) (n : ℕ) :
    (take e n : Parser ε τ (List τ)).Inverts id (fun bs => bs.length = n) :=
  fun _ _ _ => take_eq_ok

/-- A printer and a parser on one type carry over along a bijection of the values. -/
theorem Inverts.map {p : Parser ε τ α} {print : α → List τ} {Ok : α → Prop}
    (hp : p.Inverts print Ok) {f : α → β} {g : β → α} {Ok' : β → Prop}
    (hgf : ∀ a, Ok a → g (f a) = a) (hfg : ∀ b, Ok' b → f (g b) = b)
    (hok : ∀ a, Ok a → Ok' (f a)) (hok' : ∀ b, Ok' b → Ok (g b)) :
    (p.andThen fun a => done (f a)).Inverts (fun b => print (g b)) Ok' := by
  intro ts b rest
  simp only [andThen_eq_ok, done_eq_ok, hp ts]
  constructor
  · rintro ⟨a, mid, ⟨ha, rfl⟩, rfl, rfl⟩
    exact ⟨hok a ha, by rw [hgf a ha]⟩
  · rintro ⟨hb, rfl⟩
    exact ⟨g b, rest, ⟨hok' b hb, rfl⟩, hfg b hb, rfl⟩

theorem Inverts.count {p : Parser ε τ α} {print : α → List τ} {Ok : α → Prop}
    (hp : p.Inverts print Ok) : ∀ n : ℕ,
    (p.count n).Inverts (fun as => as.flatMap print) (fun as => as.length = n ∧ ∀ a ∈ as, Ok a)
  | 0, ts, as, rest => by
    simp only [Parser.count, done_eq_ok]
    constructor
    · rintro ⟨rfl, rfl⟩
      simp
    · rintro ⟨⟨h, -⟩, rfl⟩
      obtain rfl := List.length_eq_zero_iff.mp h
      simp
  | n + 1, ts, as, rest => by
    simp only [Parser.count, andThen_eq_ok, done_eq_ok, hp ts, Inverts.count hp n _]
    constructor
    · rintro ⟨a, _, ⟨ha, rfl⟩, as', _, ⟨⟨rfl, has⟩, rfl⟩, rfl, rfl⟩
      refine ⟨⟨rfl, ?_⟩, by simp⟩
      rintro b (_ | ⟨_, hb⟩)
      · exact ha
      · exact has b hb
    · rintro ⟨⟨hlen, has⟩, rfl⟩
      obtain ⟨a, as', rfl⟩ := List.exists_cons_of_length_eq_add_one hlen
      refine ⟨a, as'.flatMap print ++ rest, ⟨has a (by simp), by simp⟩, as', rest,
        ⟨⟨by simpa using hlen, fun b hb => has b (by simp [hb])⟩, rfl⟩, rfl, rfl⟩

theorem Inverts.whole {p : Parser ε τ α} {print : α → List τ} {Ok : α → Prop}
    (hp : p.Inverts print Ok) {e : ε} {ts : List τ} {a : α} :
    p.whole e ts = .ok a ↔ Ok a ∧ ts = print a := by
  rw [whole_eq_ok, hp ts, List.append_nil]

end Parser

end BonsaiChain.Lib
