import BonsaiChain.Lib.SignMagnitude
import BonsaiChain.Num2bin
import BonsaiChain.Proofs.Covenant

/-!
# The encoders at every integer and width

The one-argument encoder gives the shortest bytes of every integer; the fixed-width one gives the
integer in as many bytes as it is asked for, as long as that number is an `int`.
-/

namespace BonsaiChain

open Lib

section Minimal

theorem bnNumBytes_pos {n : ℕ} (h : n ≠ 0) : ∃ k, bnNumBytes n = k + 1 ∧ 256 ^ k ≤ n := by
  obtain ⟨k, hk⟩ : ∃ k, bnNumBytes n = k + 1 := by
    refine ⟨bnNumBytes n - 1, ?_⟩
    have : ¬bnNumBytes n ≤ 0 := by
      rw [bnNumBytes_le_iff, pow_zero]
      omega
    omega
  refine ⟨k, hk, ?_⟩
  rw [← not_lt, ← bnNumBytes_le_iff, hk]
  omega

/-- The bytes of a magnitude with the sign above it. -/
def signedBytes (w : ℕ) (n : ℤ) : Bytes :=
  leBytes (w + 1) (n.natAbs + if n < 0 then 256 ^ w * 128 else 0)

theorem smValue_signedBytes {w : ℕ} {n : ℤ} (h : n.natAbs < 256 ^ w * 128) :
    smValue (signedBytes w n) = n := by
  unfold signedBytes
  split_ifs with hneg
  · rw [smValue_leBytes (by omega), if_neg (by omega)]
    simp only [Nat.cast_add, Nat.cast_mul, Nat.cast_pow, Nat.cast_ofNat]
    omega
  · rw [smValue_leBytes (by omega), if_pos (by omega)]
    omega

/-- The one-argument encoder gives as many bytes as the magnitude has, and one more when they leave
no room for the sign. -/
theorem int2bytestringMinimal_eq {n : ℤ} {k : ℕ} (hn : n ≠ 0) (hk : bnNumBytes n.natAbs = k + 1) :
    int2bytestringMinimal n
      = if n.natAbs < 256 ^ k * 128 then signedBytes k n else signedBytes (k + 1) n := by
  have hlt := bnMagnitude_lt n.natAbs
  rw [hk] at hlt
  have hpos : 0 < 256 ^ k := pow_pos (by omega) k
  have hsign : (leBytes (k + 1) n.natAbs).getLastD 0 &&& 0x80 = 0 ↔ n.natAbs < 256 ^ k * 128 := by
    rw [(sign_bit _).1, Covenant.getLastD_leBytes hlt, Nat.div_lt_iff_lt_mul hpos, mul_comm]
  unfold int2bytestringMinimal bnMagnitudeLe signedBytes
  simp only [hn, if_false, hk, ne_eq, hsign]
  by_cases hhigh : n.natAbs < 256 ^ k * 128
  · by_cases hneg : n < 0
    · simp only [hhigh, hneg, not_true_eq_false, if_true, if_false]
      exact Covenant.setSignBit_leBytes hhigh
    · simp only [hhigh, hneg, not_true_eq_false, if_true, if_false, add_zero]
  · simp only [hhigh, not_false_eq_true, if_true, if_false]
    rw [leBytes_succ (k + 1)]
    by_cases hneg : n < 0
    · rw [if_pos hneg, if_pos hneg, leBytes_add_mul,
        Nat.add_mul_div_left _ _ (pow_pos (by omega) (k + 1)), Nat.div_eq_of_lt hlt]
      rfl
    · rw [if_neg hneg, if_neg hneg, add_zero, Nat.div_eq_of_lt hlt]
      rfl

/-- The one-argument encoder leaves no byte at the top that could go. -/
theorem int2bytestringMinimal_spec (n : ℤ) :
    smValue (int2bytestringMinimal n) = n ∧ Tight (int2bytestringMinimal n).reverse := by
  by_cases hn : n = 0
  · subst hn
    exact ⟨rfl, trivial⟩
  obtain ⟨k, hk, hle⟩ := bnNumBytes_pos (Int.natAbs_ne_zero.2 hn)
  have hlt := bnMagnitude_lt n.natAbs
  rw [hk, pow_succ] at hlt
  have hpos : 0 < 256 ^ k := pow_pos (by omega) k
  have hdiv : 0 < n.natAbs / 256 ^ k := Nat.div_pos hle hpos
  have hdiv' : n.natAbs / 256 ^ k < 256 := Nat.div_lt_of_lt_mul hlt
  rw [int2bytestringMinimal_eq hn hk]
  by_cases hhigh : n.natAbs < 256 ^ k * 128
  · rw [if_pos hhigh]
    refine ⟨smValue_signedBytes hhigh, ?_⟩
    have hhigh' : n.natAbs / 256 ^ k < 128 := by rwa [Nat.div_lt_iff_lt_mul hpos, mul_comm]
    unfold signedBytes
    rw [leBytes_succ, List.reverse_append, List.reverse_singleton, List.singleton_append]
    apply tight_of_mod_ne
    split_ifs with hneg
    · have hset : (n.natAbs / 256 ^ k + 128) % 256 = n.natAbs / 256 ^ k + 128 := by omega
      rw [Nat.add_mul_div_left _ _ hpos, UInt8.toNat_ofNat', hset]
      omega
    · rw [add_zero, UInt8.toNat_ofNat', Nat.mod_eq_of_lt (by omega)]
      omega
  · rw [if_neg hhigh]
    refine ⟨smValue_signedBytes (by rw [pow_succ]; omega), ?_⟩
    have hhigh' : 128 ≤ n.natAbs / 256 ^ k := by
      rw [Nat.le_div_iff_mul_le hpos, mul_comm]
      omega
    have hbelow : leBytes (k + 1) (n.natAbs + if n < 0 then 256 ^ (k + 1) * 128 else 0)
        = leBytes (k + 1) n.natAbs := by
      split_ifs
      · rw [leBytes_add_mul]
      · rfl
    unfold signedBytes
    rw [leBytes_succ, hbelow, leBytes_succ, List.reverse_append, List.reverse_append]
    refine Or.inr ?_
    rw [UInt8.toNat_ofNat', Nat.mod_eq_of_lt hdiv']
    exact hhigh'

/-- The one-argument encoder gives the one shortest spelling of every integer. -/
theorem isShortest_int2bytestringMinimal (n : ℤ) : IsShortest n (int2bytestringMinimal n) := by
  obtain ⟨hvalue, htight⟩ := int2bytestringMinimal_spec n
  have h := isShortest_of_tight htight
  rwa [hvalue] at h

end Minimal

section Sized

variable {fresh : ℕ → UInt8} {n : ℤ} {w : ℕ} {out : Bytes}

theorem intOfSize_of_lt (h : w < 2 ^ 31) : intOfSize w = w := by
  unfold intOfSize
  rw [Int.bmod_def]
  omega

theorem intOfSize_lt (h : 2 ^ 31 ≤ w) : intOfSize w < w := by
  unfold intOfSize
  rw [Int.bmod_def]
  omega

/-- A width that is an `int` is written whole. -/
theorem bnToLeBytesIn_of_lt (h : w < 2 ^ 31) : bnToLeBytesIn fresh n w = bnToLeBytes n w := by
  unfold bnToLeBytesIn bnToLeBytes
  rw [intOfSize_of_lt h]
  simp

theorem callOn_int2bytestringSizedOut (h : w < 2 ^ 31) :
    callOn (int2bytestringSizedOut fresh n w) out = match int2bytestringSized n w with
      | .ok bs => (.ok (), out ++ bs)
      | .error e => (.error e, out) := by
  unfold int2bytestringSizedOut int2bytestringSized
  rw [bnToLeBytesIn_of_lt h]
  cases bnToLeBytes n.natAbs w with
  | error e => rfl
  | ok tmp =>
    simp only [callOn_lift_ok_bind, callOn_ite, callOn_throw, callOn_modify, ok_bind]
    split_ifs <;> rfl

theorem int2bytestringSized_succ_eq_ok {bs : Bytes} :
    int2bytestringSized n (w + 1) = .ok bs
      ↔ n.natAbs < 256 ^ w * 128 ∧ bs = signedBytes w n := by
  rw [Covenant.int2bytestringSized_eq_ok (by omega), Covenant.num2bin_eq_some, Covenant.pow_sign]
  simp [signedBytes]

/-- A width that is cut to no more than the integer has, or to less than was asked for, is refused
even for 1, if the memory held a sign bit. -/
theorem int2bytestringSizedOut_one (h : 2 ^ 31 ≤ w) :
    callOn (int2bytestringSizedOut (fun _ => 0x80) 1 w) out = (.error .erange, out) := by
  have hlt := intOfSize_lt h
  have hneg : ¬(((1 : ℤ).natAbs : ℤ) < 0) := by decide
  have hone : (bnNumBytes (((1 : ℤ).natAbs : ℤ).natAbs) : ℤ) = 1 := by decide
  unfold int2bytestringSizedOut bnToLeBytesIn
  simp only [hneg, if_false, hone]
  by_cases hw : (1 : ℤ) > intOfSize w
  · rw [if_pos hw, callOn_lift_error_bind]
  · obtain ⟨k, hk⟩ : ∃ k, w - (intOfSize w).toNat = k + 1 := ⟨w - (intOfSize w).toNat - 1, by omega⟩
    have htop : (leBytes (intOfSize w).toNat ((1 : ℤ).natAbs : ℤ).natAbs
        ++ (List.range (k + 1)).map fun _ => (0x80 : UInt8)).getLastD 0 = 0x80 := by
      rw [List.range_succ, List.map_append, ← List.append_assoc, List.map_singleton,
        List.getLastD_concat]
    rw [if_neg hw, callOn_lift_ok_bind, if_pos (by omega), hk, htop]
    rfl

end Sized

section Correct

/-- The fixed-width encoder at this width: an integer that fits is appended in as many bytes, which
stripped are the shortest, and one that does not leaves the buffer as it was. -/
def SizedEncodes (w : ℕ) : Prop :=
  ∀ (fresh : ℕ → UInt8) (n : ℤ) (out : Bytes),
    if n.natAbs < 2 ^ (8 * w - 1) then
      ∃ bs, callOn (int2bytestringSizedOut fresh n w) out = (.ok (), out ++ bs)
        ∧ bs.length = w ∧ smValue bs = n ∧ smStrip bs = int2bytestringMinimal n
    else ∃ e, callOn (int2bytestringSizedOut fresh n w) out = (.error e, out)

theorem sizedEncodes_of_lt {w : ℕ} (hw : w + 1 < 2 ^ 31) : SizedEncodes (w + 1) := by
  intro fresh n out
  rw [callOn_int2bytestringSizedOut hw, Covenant.pow_sign]
  split_ifs with hn
  · have hok := int2bytestringSized_succ_eq_ok.2 ⟨hn, rfl⟩
    have hvalue := smValue_signedBytes hn
    refine ⟨signedBytes w n, by rw [hok], leBytes_length _ _, hvalue, ?_⟩
    have hstrip := isShortest_smStrip (signedBytes w n)
    rw [hvalue] at hstrip
    exact hstrip.unique (isShortest_int2bytestringMinimal n)
  · cases h : int2bytestringSized n (w + 1) with
    | error e => exact ⟨e, rfl⟩
    | ok bs => exact absurd (int2bytestringSized_succ_eq_ok.1 h).1 hn

/-- The encoders are right at every integer, the fixed-width one at every width that is an `int`. -/
theorem scriptIntegers_iff {w : ℕ} (hw : 0 < w) :
    ((∀ n, IsShortest n (int2bytestringMinimal n)) ∧ SizedEncodes w) ↔ w < 2 ^ 31 := by
  constructor
  · rintro ⟨-, h⟩
    by_contra hlarge
    have h := h (fun _ => 0x80) 1 []
    have hfits : Int.natAbs 1 < 2 ^ (8 * w - 1) := Nat.one_lt_two_pow (by omega)
    rw [if_pos hfits, int2bytestringSizedOut_one (by omega)] at h
    obtain ⟨bs, hbs, -⟩ := h
    simp at hbs
  · intro hlt
    obtain ⟨w, rfl⟩ : ∃ k, w = k + 1 := ⟨w - 1, by omega⟩
    exact ⟨isShortest_int2bytestringMinimal, sizedEncodes_of_lt hlt⟩

theorem scriptIntegers_iff_eight :
    0 < 8 ∧ (((∀ n, IsShortest n (int2bytestringMinimal n)) ∧ SizedEncodes 8) ↔ 8 < 2 ^ 31) :=
  ⟨by decide, scriptIntegers_iff (by decide)⟩

/-- The first width that is no `int`: it is taken for a negative one, and nothing fits. -/
theorem int2bytestringSizedOut_refuses_one :
    Int.natAbs 1 < 2 ^ (8 * 2 ^ 31 - 1)
      ∧ callOn (int2bytestringSizedOut (fun _ => 0) 1 (2 ^ 31)) [] = (.error .erange, []) :=
  ⟨Nat.one_lt_two_pow (by omega), by decide⟩

end Correct

end BonsaiChain
