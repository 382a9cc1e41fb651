import BonsaiChain.Bignum
import BonsaiChain.Proofs.Common

/-!
# Printed integers parse back
-/

namespace BonsaiChain

section Dec

theorem decDigits_map : ∀ {cs : List Char} {n : ℕ}, (∀ c ∈ cs, c.isDigit) →
    decDigits n (cs.map fun c => UInt8.ofNat c.toNat) = some (Nat.ofDigitChars 10 cs n)
  | [], n, _ => by simp [decDigits]
  | c :: cs, n, h => by
    rw [List.forall_mem_cons] at h
    obtain ⟨-, hhi⟩ := isDigit_toNat h.1
    have hbyte : (UInt8.ofNat c.toNat).toNat = c.toNat := toNat_ofNat_of_lt (by omega)
    rw [List.map_cons, decDigits, if_pos (digit_of_isDigit h.1), hbyte, decDigits_map h.2,
      Nat.ofDigitChars_cons]
    rfl

theorem decDigits_decimal (n : ℕ) : decDigits 0 (decimal n) = some n := by
  have hdigits : ∀ c ∈ Nat.toDigits 10 n, c.isDigit :=
    fun c hc => Nat.isDigit_of_mem_toDigits (by omega) (by omega) hc
  have hparse := decDigits_map (n := 0) hdigits
  rwa [Nat.ofDigitChars_ten_toDigits] at hparse

/-- The value only grows as digits are read. -/
theorem decDigits_le : ∀ {cs : CString} {v n : ℕ}, decDigits v cs = some n → v ≤ n
  | [], v, n, h => (Option.some.inj h).le
  | c :: cs, v, n, h => by
    rw [decDigits, Option.ite_none_right_eq_some] at h
    have := decDigits_le h.2
    omega

/-- A decimal string parses back. -/
theorem bnParseDec_bnToDec (n : ℕ) : bnParseDec (bnToDec n) = .ok (n : ℤ) := by
  have hparse := decDigits_decimal n
  have hdigits : ∀ c ∈ decimal n, 48 ≤ c ∧ c ≤ 57 := fun c hc => decimal_digit hc
  unfold bnToDec bnParseDec
  split
  · exact absurd ‹_› decimal_ne_nil
  · exact absurd (hdigits 45 (by simp [*])).1 (by decide)
  · exact absurd (hdigits 45 (by simp [*])).1 (by decide)
  · rw [hparse]
    rfl

theorem bnParseDec_decimalInt (n : ℤ) : bnParseDec (decimalInt n) = .ok n := by
  unfold decimalInt
  split_ifs with hneg
  · obtain ⟨c, cs, hcs⟩ := List.exists_cons_of_ne_nil (decimal_ne_nil (n := n.natAbs))
    have hparse := decDigits_decimal n.natAbs
    rw [hcs] at hparse ⊢
    have hn : -(n.natAbs : ℤ) = n := by omega
    simp only [bnParseDec, hparse]
    exact congrArg Except.ok hn
  · have h := bnParseDec_bnToDec n.natAbs
    rw [bnToDec] at h
    rw [h, Int.natAbs_of_nonneg (by omega)]

end Dec

section Hex

theorem bnToHex_of_lt {n : ℕ} (h : n < 16) : bnToHex n = [hexDigit (UInt8.ofNat n)] := by
  have key : ∀ n < 16, bnToHex n = [hexDigit (UInt8.ofNat n)] := by decide
  exact key n h

theorem bnToHex_of_le {n : ℕ} (h : 16 ≤ n) : bnToHex n = bnToHex (n / 16) ++ bnToHex (n % 16) := by
  have hlt : n % 16 < 16 := Nat.mod_lt _ (by omega)
  unfold bnToHex
  rw [Nat.toDigits_of_base_le (by omega) h, Nat.toDigits_of_lt_base hlt, List.map_append]

/-- The number the digits spell, on from one read before them. -/
def hexValue (n : ℕ) (cs : CString) : ℕ :=
  cs.foldl (fun n c => 16 * n + ((hexNibble c).getD 0).toNat) n

theorem hexValue_digit {n m : ℕ} (h : m < 16) :
    hexValue n [hexDigit (UInt8.ofNat m)] = 16 * n + m := by
  have key : ∀ m < 16, ((hexNibble (hexDigit (UInt8.ofNat m))).getD 0).toNat = m := by decide
  rw [hexValue, List.foldl_cons, List.foldl_nil, key m h]

theorem hexValue_append {n : ℕ} (cs ds : CString) :
    hexValue n (cs ++ ds) = hexValue (hexValue n cs) ds :=
  List.foldl_append

theorem hexValue_bnToHex (n : ℕ) : hexValue 0 (bnToHex n) = n := by
  induction n using Nat.strong_induction_on with
  | h n ih =>
    by_cases hn : n < 16
    · rw [bnToHex_of_lt hn, hexValue_digit hn]
      omega
    · have hdiv := ih (n / 16) (by omega)
      have hmod : n % 16 < 16 := Nat.mod_lt _ (by omega)
      rw [bnToHex_of_le (by omega), hexValue_append, hdiv, bnToHex_of_lt hmod, hexValue_digit hmod]
      omega

theorem hexDigits_eq : ∀ {cs : CString} {n : ℕ}, (∀ c ∈ cs, (hexNibble c).isSome) →
    hexDigits n cs = some (hexValue n cs)
  | [], n, _ => rfl
  | c :: cs, n, h => by
    rw [List.forall_mem_cons] at h
    obtain ⟨d, hd⟩ := Option.isSome_iff_exists.mp h.1
    rw [hexDigits, hd, hexValue, List.foldl_cons, hd]
    exact hexDigits_eq h.2

theorem hexNibble_bnToHex (n : ℕ) : ∀ c ∈ bnToHex n, (hexNibble c).isSome := by
  have key : ∀ n < 16, (hexNibble (hexDigit (UInt8.ofNat n))).isSome := by decide
  induction n using Nat.strong_induction_on with
  | h n ih =>
    by_cases hn : n < 16
    · rw [bnToHex_of_lt hn, List.forall_mem_singleton]
      exact key n hn
    · have hmod : n % 16 < 16 := Nat.mod_lt _ (by omega)
      rw [bnToHex_of_le (by omega), List.forall_mem_append]
      refine ⟨ih _ (by omega), ?_⟩
      rw [bnToHex_of_lt hmod, List.forall_mem_singleton]
      exact key _ hmod

theorem bnToHex_ne_nil (n : ℕ) : bnToHex n ≠ [] := by
  simp [bnToHex, Nat.toDigits_ne_nil]

/-- A number below `16 ^ w` has at most `w` digits. -/
theorem bnToHex_length_le : ∀ {w n : ℕ}, 0 < w → n < 16 ^ w → (bnToHex n).length ≤ w
  | 0, n, h, _ => absurd h (Nat.lt_irrefl 0)
  | 1, n, _, h => by rw [bnToHex_of_lt (by simpa using h)]; rfl
  | w + 2, n, _, h => by
    by_cases hn : n < 16
    · rw [bnToHex_of_lt hn, List.length_singleton]
      omega
    · have hdiv : n / 16 < 16 ^ (w + 1) := Nat.div_lt_of_lt_mul (by rwa [← pow_succ'])
      have ih := bnToHex_length_le (Nat.succ_pos w) hdiv
      have hmod : n % 16 < 16 := Nat.mod_lt _ (by omega)
      rw [bnToHex_of_le (by omega), List.length_append, bnToHex_of_lt hmod, List.length_singleton]
      omega

theorem hexNibble_plain (c : UInt8) (h : (hexNibble c).isSome) :
    c ≠ 45 ∧ c ≠ 43 ∧ c ≠ 120 ∧ c ≠ 88 :=
  (hexByte c).2.2.2.2.2.2 h

theorem hexSign_digits : ∀ {cs : CString}, (∀ c ∈ cs, (hexNibble c).isSome) →
    hexSign cs = (false, cs) := by
  intro cs h
  unfold hexSign
  split
  · exact absurd rfl (hexNibble_plain 45 (h 45 (List.mem_cons_self ..))).1
  · exact absurd rfl (hexNibble_plain 43 (h 43 (List.mem_cons_self ..))).2.1
  · rfl

theorem hexPrefix_digits : ∀ {cs : CString}, (∀ c ∈ cs, (hexNibble c).isSome) →
    hexPrefix cs = cs := by
  intro cs h
  unfold hexPrefix
  split
  · exact absurd rfl (hexNibble_plain 120 (h 120 (by simp))).2.2.1
  · exact absurd rfl (hexNibble_plain 88 (h 88 (by simp))).2.2.2
  · rfl

theorem bnHex2bn_digits {cs : CString} (hne : cs ≠ []) (hlen : cs.length ≤ 1024)
    (h : ∀ c ∈ cs, (hexNibble c).isSome) : bnHex2bn cs = some (hexValue 0 cs : ℤ) := by
  unfold bnHex2bn
  split
  · exact absurd rfl (hexNibble_plain 45 (h 45 (List.mem_cons_self ..))).1
  · rw [if_neg (by rintro (rfl | h) <;> [exact hne rfl; omega]), hexDigits_eq h]
    rfl

/-- A text of hex digits is read as what it spells. -/
theorem bnParseHex_digits {cs : CString} (hne : cs ≠ []) (hlen : cs.length ≤ 1024)
    (h : ∀ c ∈ cs, (hexNibble c).isSome) : bnParseHex cs = .ok (hexValue 0 cs : ℤ) := by
  unfold bnParseHex
  rw [hexSign_digits h]
  simp only [hexPrefix_digits h, bnHex2bn_digits hne hlen h, Bool.false_eq_true, if_false]

theorem bnToHex_inj {m n : ℕ} (h : bnToHex m = bnToHex n) : m = n := by
  rw [← hexValue_bnToHex m, h, hexValue_bnToHex]

end Hex

end BonsaiChain
