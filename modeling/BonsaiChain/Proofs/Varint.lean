import BonsaiChain.Tx

/-!
# The CompactSize codec is a bijection

The reader succeeds on exactly the lists that start with the print of a `uint64_t`, so no value
has two forms.
-/

namespace BonsaiChain

open Lib

theorem writeVarint_length_pos (n : ℕ) : 0 < (writeVarint n).length := by
  unfold writeVarint
  split_ifs <;> simp

theorem writeVarint_length_le (n : ℕ) : (writeVarint n).length ≤ 9 := by
  unfold writeVarint
  split_ifs <;> simp

/-- A lead byte, then the value in the width that the lead byte announces. -/
theorem readVarint_cons {lead : UInt8} {ts rest : Bytes} {n : ℕ} :
    readVarint (lead :: ts) = .ok (n, rest) ↔
      (lead < 0xfd ∧ n = lead.toNat ∧ ts = rest)
        ∨ (¬ lead < 0xfd ∧ (varintPayload lead).2 ≤ n ∧ n < 256 ^ (varintPayload lead).1
            ∧ ts = leBytes (varintPayload lead).1 n ++ rest) := by
  simp only [readVarint]
  split_ifs with h1 h2 h3
  · simp [h1, eq_comm]
  · simp only [h1, false_and, not_false_eq_true, true_and, false_or, false_iff, not_and]
    rintro - - rfl
    simp at h2
  · simp only [h1, false_and, not_false_eq_true, true_and, false_or, false_iff, not_and]
    rintro hmin hn rfl
    rw [List.take_left' (leBytes_length _ _), leNat_leBytes_of_lt hn] at h3
    omega
  · simp only [h1, false_and, not_false_eq_true, true_and, false_or, Except.ok.injEq,
      Prod.mk.injEq]
    have hlen : (ts.take (varintPayload lead).1).length = (varintPayload lead).1 := by
      simp; omega
    constructor
    · rintro ⟨rfl, rfl⟩
      refine ⟨by omega, ?_, ?_⟩
      · have := leNat_lt (ts.take (varintPayload lead).1)
        rwa [hlen] at this
      · rw [leBytes_leNat_of_length hlen, List.take_append_drop]
    · rintro ⟨-, hn, rfl⟩
      rw [List.take_left' (leBytes_length _ _), leNat_leBytes_of_lt hn,
        List.drop_left' (leBytes_length _ _)]
      exact ⟨rfl, rfl⟩

theorem varintPayload_fd : varintPayload 0xfd = (2, 0xfd) := rfl
theorem varintPayload_fe : varintPayload 0xfe = (4, 0x10000) := rfl
theorem varintPayload_ff : varintPayload 0xff = (8, 0x100000000) := rfl

theorem lead_cases (lead : UInt8) : lead < 0xfd ∨ lead = 0xfd ∨ lead = 0xfe ∨ lead = 0xff := by
  have hlt := lead.toNat_lt
  simp only [UInt8.lt_iff_toNat_lt, ← UInt8.toNat_inj, UInt8.reduceToNat]
  omega

/-- Reading back a printed number leaves what followed it. -/
theorem readVarint_writeVarint {n : ℕ} (hn : n < 2 ^ 64) (rest : Bytes) :
    readVarint (writeVarint n ++ rest) = .ok (n, rest) := by
  unfold writeVarint
  split_ifs with h1 h2 h3 <;> rw [List.cons_append, readVarint_cons]
  · have hl : (UInt8.ofNat n).toNat = n := by rw [UInt8.toNat_ofNat']; omega
    exact .inl ⟨UInt8.lt_iff_toNat_lt.mpr (by rw [hl]; exact h1), hl.symm, rfl⟩
  · exact .inr ⟨by decide, by simp only [varintPayload_fd]; omega,
      by simp only [varintPayload_fd]; omega, rfl⟩
  · exact .inr ⟨by decide, by simp only [varintPayload_fe]; omega,
      by simp only [varintPayload_fe]; omega, rfl⟩
  · exact .inr ⟨by decide, by simp only [varintPayload_ff]; omega,
      by simp only [varintPayload_ff]; omega, rfl⟩

/-- What the reader accepts is the print of what it returns. -/
theorem readVarint_eq_ok {ts rest : Bytes} {n : ℕ} (h : readVarint ts = .ok (n, rest)) :
    n < 2 ^ 64 ∧ ts = writeVarint n ++ rest := by
  cases ts with
  | nil => simp [readVarint] at h
  | cons lead ts =>
    rw [readVarint_cons] at h
    unfold writeVarint
    rcases h with ⟨hl, rfl, rfl⟩ | ⟨hl, hmin, hn, rfl⟩
    · have hl' : lead.toNat < 0xfd := UInt8.lt_iff_toNat_lt.mp hl
      rw [if_pos hl', UInt8.ofNat_toNat]
      exact ⟨by omega, rfl⟩
    · rcases lead_cases lead with h | rfl | rfl | rfl
      · exact absurd h hl
      · simp only [varintPayload_fd] at hmin hn ⊢
        rw [if_neg (by omega), if_pos (by omega)]
        exact ⟨by omega, rfl⟩
      · simp only [varintPayload_fe] at hmin hn ⊢
        rw [if_neg (by omega), if_neg (by omega), if_pos (by omega)]
        exact ⟨by omega, rfl⟩
      · simp only [varintPayload_ff] at hmin hn ⊢
        rw [if_neg (by omega), if_neg (by omega), if_neg (by omega)]
        exact ⟨by omega, rfl⟩

theorem readVarint_inverts : readVarint.Inverts writeVarint (· < 2 ^ 64) := by
  intro ts n rest
  constructor
  · exact readVarint_eq_ok
  · rintro ⟨hn, rfl⟩
    exact readVarint_writeVarint hn rest

end BonsaiChain
