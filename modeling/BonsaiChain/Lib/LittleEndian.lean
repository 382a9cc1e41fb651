import Mathlib.Data.List.Basic
import Mathlib.Tactic.Ring

/-!
# Little-endian bytes

A natural number in `w` little-endian bytes and the number a byte list spells, with both round
trips. The printer truncates modulo `256 ^ w`; the reader never fails.
-/

namespace BonsaiChain.Lib

/-- A statement about a byte is 256 statements. -/
theorem forall_byte {P : UInt8 → Prop} (h : ∀ n < 256, P (UInt8.ofNat n)) (b : UInt8) : P b := by
  have := h b.toNat b.toNat_lt
  rwa [UInt8.ofNat_toNat] at this

/-- `n` modulo `256 ^ w` in `w` bytes, least significant first. -/
def leBytes : ℕ → ℕ → List UInt8
  | 0, _ => []
  | w + 1, n => UInt8.ofNat n :: leBytes w (n / 256)

/-- The number a byte list spells, least significant byte first. -/
def leNat : List UInt8 → ℕ
  | [] => 0
  | b :: bs => b.toNat + 256 * leNat bs

@[simp] theorem leBytes_length : ∀ w n : ℕ, (leBytes w n).length = w
  | 0, _ => rfl
  | w + 1, n => by simp [leBytes, leBytes_length w]

theorem leNat_lt : ∀ bs : List UInt8, leNat bs < 256 ^ bs.length
  | [] => by simp [leNat]
  | b :: bs => by
    have hb := b.toNat_lt
    have ih := leNat_lt bs
    simp only [leNat, List.length_cons, pow_succ]
    omega

theorem leNat_leBytes : ∀ w n : ℕ, leNat (leBytes w n) = n % 256 ^ w
  | 0, n => by simp [leBytes, leNat, Nat.mod_one]
  | w + 1, n => by
    rw [leBytes, leNat, leNat_leBytes w, UInt8.toNat_ofNat', pow_succ' 256 w, Nat.mod_mul]

theorem leNat_leBytes_of_lt {w n : ℕ} (h : n < 256 ^ w) : leNat (leBytes w n) = n := by
  rw [leNat_leBytes, Nat.mod_eq_of_lt h]

theorem leBytes_leNat : ∀ bs : List UInt8, leBytes bs.length (leNat bs) = bs
  | [] => rfl
  | b :: bs => by
    have hb := b.toNat_lt
    have hdiv : (b.toNat + 256 * leNat bs) / 256 = leNat bs := by omega
    have hmod : UInt8.ofNat (b.toNat + 256 * leNat bs) = b := by
      apply UInt8.toNat_inj.mp
      rw [UInt8.toNat_ofNat']
      omega
    simp only [List.length_cons, leNat, leBytes, hdiv, hmod, leBytes_leNat bs]

theorem leBytes_leNat_of_length {bs : List UInt8} {w : ℕ} (h : bs.length = w) :
    leBytes w (leNat bs) = bs := by
  rw [← h, leBytes_leNat]

theorem leBytes_inj {w m n : ℕ} (hm : m < 256 ^ w) (hn : n < 256 ^ w)
    (h : leBytes w m = leBytes w n) : m = n := by
  rw [← leNat_leBytes_of_lt hm, h, leNat_leBytes_of_lt hn]

/-- The most significant byte is the last one. -/
theorem leBytes_succ : ∀ w n : ℕ, leBytes (w + 1) n = leBytes w n ++ [UInt8.ofNat (n / 256 ^ w)]
  | 0, n => by simp [leBytes]
  | w + 1, n => by
    rw [leBytes, leBytes_succ w, leBytes, List.cons_append, Nat.div_div_eq_div_mul, pow_succ']

theorem leBytes_add_mul : ∀ w m k : ℕ, leBytes w (m + 256 ^ w * k) = leBytes w m
  | 0, _, _ => rfl
  | w + 1, m, k => by
    have hmod : UInt8.ofNat (m + 256 ^ (w + 1) * k) = UInt8.ofNat m := by
      apply UInt8.toNat_inj.mp
      rw [UInt8.toNat_ofNat', UInt8.toNat_ofNat', pow_succ', mul_assoc]
      omega
    have hdiv : (m + 256 ^ (w + 1) * k) / 256 = m / 256 + 256 ^ w * k := by
      rw [pow_succ', mul_assoc]
      omega
    rw [leBytes, leBytes, hmod, hdiv, leBytes_add_mul w]

theorem leNat_append : ∀ as bs : List UInt8,
    leNat (as ++ bs) = leNat as + 256 ^ as.length * leNat bs
  | [], bs => by simp [leNat]
  | a :: as, bs => by
    simp only [List.cons_append, leNat, leNat_append as, List.length_cons, pow_succ]
    ring

end BonsaiChain.Lib
