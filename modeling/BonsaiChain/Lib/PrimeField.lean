import Mathlib.Data.List.Prime
import Mathlib.FieldTheory.Finite.Basic
import Mathlib.NumberTheory.LucasPrimality

/-!
# Primes and powers

Whether a number is prime can be tested on the prime factors of its predecessor. Over a prime field
a power is a permutation when its exponent has no factor in common with the order of the units.
-/

namespace BonsaiChain.Lib

section Lucas

/-- `a ^ n % m` for an exponent of as many bits as the first argument says. -/
def powMod (m a : ℕ) : ℕ → ℕ → ℕ
  | 0, _ => 1 % m
  | bits + 1, n =>
    if n % 2 = 1 then powMod m a bits (n / 2) ^ 2 * a % m else powMod m a bits (n / 2) ^ 2 % m

theorem powMod_eq (m a : ℕ) : ∀ {bits n : ℕ}, n < 2 ^ bits → powMod m a bits n = a ^ n % m
  | 0, n, h => by
    obtain rfl : n = 0 := by simpa using h
    rfl
  | bits + 1, n, h => by
    have hhalf : powMod m a bits (n / 2) = a ^ (n / 2) % m := powMod_eq m a (by omega)
    have hsq : (a ^ (n / 2) % m) ^ 2 ≡ a ^ (2 * (n / 2)) [MOD m] := by
      rw [mul_comm, pow_mul]
      exact (Nat.mod_modEq _ _).pow 2
    rw [powMod, hhalf]
    split_ifs with hodd
    · calc (a ^ (n / 2) % m) ^ 2 * a % m = a ^ (2 * (n / 2)) * a % m := hsq.mul_right a
        _ = a ^ n % m := by rw [← pow_succ, show 2 * (n / 2) + 1 = n by omega]
    · rw [hsq, show 2 * (n / 2) = n by omega]

/-- The test of Lucas with a base `a`, for the factors of `p - 1` in a list. -/
structure LucasTest (bits p a : ℕ) (qs : List ℕ) : Prop where
  one_lt : 1 < p
  le : p ≤ 2 ^ bits
  prod : qs.prod = p - 1
  one : powMod p a bits (p - 1) = 1
  ne_one : ∀ q ∈ qs, powMod p a bits ((p - 1) / q) ≠ 1

instance (bits p a : ℕ) (qs : List ℕ) : Decidable (LucasTest bits p a qs) :=
  decidable_of_iff (1 < p ∧ p ≤ 2 ^ bits ∧ qs.prod = p - 1 ∧ powMod p a bits (p - 1) = 1
      ∧ ∀ q ∈ qs, powMod p a bits ((p - 1) / q) ≠ 1)
    ⟨fun ⟨h1, h2, h3, h4, h5⟩ => ⟨h1, h2, h3, h4, h5⟩, fun h => ⟨h.1, h.2, h.3, h.4, h.5⟩⟩

theorem LucasTest.prime {bits p a : ℕ} {qs : List ℕ} (h : LucasTest bits p a qs)
    (hqs : ∀ q ∈ qs, q.Prime) : p.Prime := by
  have hpow : ∀ n ≤ p - 1, powMod p a bits n = 1 ↔ (a : ZMod p) ^ n = 1 := by
    intro n hn
    have h1 := h.one_lt
    have h2 := h.le
    have hone : ((a ^ n : ℕ) : ZMod p) = (1 : ℕ) ↔ a ^ n % p = 1 % p :=
      ZMod.natCast_eq_natCast_iff' ..
    rw [Nat.cast_pow, Nat.cast_one, Nat.mod_eq_of_lt h1] at hone
    rw [powMod_eq p a (by omega), hone]
  refine lucas_primality p a ((hpow _ le_rfl).1 h.one) fun q hq hdvd hone => ?_
  have hmem : q ∈ qs := by
    obtain ⟨q', hq', hdvd'⟩ := hq.prime.dvd_prod_iff.1 (h.prod ▸ hdvd)
    rwa [(Nat.prime_dvd_prime_iff_eq hq (hqs q' hq')).1 hdvd']
  exact h.ne_one q hmem ((hpow _ (Nat.div_le_self _ _)).2 hone)

end Lucas

section Power

variable {p : ℕ} [Fact p.Prime] {d : ℕ}

theorem pow_injective_of_coprime (hd : 0 < d) (hcop : d.Coprime (p - 1)) :
    Function.Injective fun x : ZMod p => x ^ d := by
  intro x y hxy
  by_cases hy : y = 0
  · have hx : x ^ d = 0 := by
      rw [show x ^ d = y ^ d from hxy, hy, zero_pow hd.ne']
    rw [hy, pow_eq_zero_iff hd.ne' |>.1 hx]
  · have hx : x ≠ 0 := by
      rintro rfl
      have hzero : y ^ d = 0 := (show (0 : ZMod p) ^ d = y ^ d from hxy) ▸ zero_pow hd.ne'
      exact hy (pow_eq_zero_iff hd.ne' |>.1 hzero)
    have hquot : (x / y) ^ d = 1 := by
      rw [div_pow, show x ^ d = y ^ d from hxy, div_self (pow_ne_zero d hy)]
    have hfermat : (x / y) ^ (p - 1) = 1 := ZMod.pow_card_sub_one_eq_one (div_ne_zero hx hy)
    have hone : (x / y) ^ d.gcd (p - 1) = 1 := pow_gcd_eq_one.2 ⟨hquot, hfermat⟩
    rw [hcop, pow_one, div_eq_one_iff_eq hy] at hone
    exact hone

theorem pow_bijective_of_coprime (hd : 0 < d) (hcop : d.Coprime (p - 1)) :
    Function.Bijective fun x : ZMod p => x ^ d :=
  Finite.injective_iff_bijective.1 (pow_injective_of_coprime hd hcop)

end Power

end BonsaiChain.Lib
