import Mathlib.Data.Nat.ChineseRemainder
import Mathlib.FieldTheory.Finite.Basic

/-!
# Square roots modulo two primes

For a prime that is 3 modulo 4, the power `(p + 1) / 4` of a square is a root of it. The roots
modulo two such primes are put together with inverses from Fermat's little theorem, and what comes
out is a root modulo the product exactly when there is one modulo both primes.
-/

namespace BonsaiChain.Lib

variable {p q x : ℕ}

theorem sq_pow_of_isSquare [Fact p.Prime] (hp : p % 4 = 3) {a : ZMod p} (ha : IsSquare a) :
    (a ^ ((p + 1) / 4)) ^ 2 = a := by
  obtain ⟨y, rfl⟩ := ha
  have hexp : (p + 1) / 4 * 4 = p + 1 := by omega
  calc ((y * y) ^ ((p + 1) / 4)) ^ 2 = y ^ ((p + 1) / 4 * 4) := by ring
    _ = y ^ p * y := by rw [hexp, pow_succ]
    _ = y * y := by rw [ZMod.pow_card]

/-- The inverse of Fermat's little theorem. -/
theorem pow_sub_two_mul [Fact p.Prime] {a : ZMod p} (ha : a ≠ 0) : a ^ (p - 2) * a = 1 := by
  have h2 := (Fact.out : p.Prime).two_le
  rw [← pow_succ, show p - 2 + 1 = p - 1 by omega]
  exact ZMod.pow_card_sub_one_eq_one ha

/-- The root modulo `p`, scaled so that it vanishes modulo `q`. -/
def crtTerm (p q x : ℕ) : ℕ := q ^ (p - 2) % p * q * (x ^ ((p + 1) / 4) % p)

def crtRoot (p q x : ℕ) : ℕ := (crtTerm p q x + crtTerm q p x) % (p * q)

theorem crtTerm_left [Fact p.Prime] (hq : (q : ZMod p) ≠ 0) :
    (crtTerm p q x : ZMod p) = (x : ZMod p) ^ ((p + 1) / 4) := by
  unfold crtTerm
  push_cast
  rw [ZMod.natCast_mod, ZMod.natCast_mod, Nat.cast_pow, Nat.cast_pow, pow_sub_two_mul hq, one_mul]

theorem crtTerm_right : (crtTerm p q x : ZMod q) = 0 := by
  unfold crtTerm
  push_cast
  rw [ZMod.natCast_self, mul_zero, zero_mul]

theorem natCast_ne_zero_of_prime [Fact p.Prime] (hq : q.Prime) (hne : p ≠ q) :
    (q : ZMod p) ≠ 0 := by
  rw [Ne, ZMod.natCast_eq_zero_iff]
  exact fun h => hne ((Nat.prime_dvd_prime_iff_eq Fact.out hq).mp h)

theorem crtRoot_left [Fact p.Prime] (hq : q.Prime) (hne : p ≠ q) :
    (crtRoot p q x : ZMod p) = (x : ZMod p) ^ ((p + 1) / 4) := by
  have hcast : (crtRoot p q x : ZMod p) = ((crtTerm p q x + crtTerm q p x : ℕ) : ZMod p) := by
    rw [ZMod.natCast_eq_natCast_iff]
    exact (Nat.mod_modEq _ _).of_mul_right q
  rw [hcast, Nat.cast_add, crtTerm_right, add_zero,
    crtTerm_left (natCast_ne_zero_of_prime hq hne)]

theorem crtRoot_comm : crtRoot p q x = crtRoot q p x := by
  unfold crtRoot
  rw [add_comm, mul_comm]

/-- What is computed squares to `x` modulo a factor exactly when `x` is a square there. -/
theorem crtRoot_sq_left (hp : p.Prime) (hq : q.Prime) (hne : p ≠ q) (hp4 : p % 4 = 3) :
    crtRoot p q x ^ 2 ≡ x [MOD p] ↔ IsSquare (x : ZMod p) := by
  have := Fact.mk hp
  rw [← ZMod.natCast_eq_natCast_iff, Nat.cast_pow, crtRoot_left hq hne]
  constructor
  · intro h
    rw [← h]
    exact IsSquare.sq _
  · exact sq_pow_of_isSquare hp4

theorem crtRoot_sq (hp : p.Prime) (hq : q.Prime) (hne : p ≠ q) (hp4 : p % 4 = 3)
    (hq4 : q % 4 = 3) :
    crtRoot p q x ^ 2 ≡ x [MOD p * q] ↔ IsSquare (x : ZMod p) ∧ IsSquare (x : ZMod q) := by
  have hcoprime : p.Coprime q := (Nat.coprime_primes hp hq).mpr hne
  rw [← Nat.modEq_and_modEq_iff_modEq_mul hcoprime, crtRoot_sq_left hp hq hne hp4, crtRoot_comm,
    crtRoot_sq_left hq hp hne.symm hq4]

end BonsaiChain.Lib
