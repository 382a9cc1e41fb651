import BonsaiChain.Lib.LittleEndian
import BonsaiChain.Lib.Utf8
import BonsaiChain.Utf8

/-!
# The validator accepts UTF-8 and nothing else

One lap of the validator takes the sequence of one character off the string.
-/

namespace BonsaiChain

open Lib

section Laps

variable {c : UInt8} {s rest : Bytes}

/-- The tests of a lap as bounds. -/
theorem utf8Masks : ∀ c : UInt8, (c &&& 0xe0 = 0xc0 ↔ 0xc0 ≤ c.toNat ∧ c.toNat ≤ 0xdf)
    ∧ (c &&& 0xf0 = 0xe0 ↔ 0xe0 ≤ c.toNat ∧ c.toNat ≤ 0xef)
    ∧ (c &&& 0xf8 = 0xf0 ↔ 0xf0 ≤ c.toNat ∧ c.toNat ≤ 0xf7)
    ∧ (c &&& 0xc0 = 0x80 ↔ 0x80 ≤ c.toNat ∧ c.toNat ≤ 0xbf) := by
  apply forall_byte
  decide +kernel

theorem tail_iff (c : UInt8) : c &&& 0xc0 = 0x80 ↔ IsTail c := (utf8Masks c).2.2.2

theorem refuse_iff {p : Prop} [Decidable p] {b : Bool} :
    (if p then false else b) = true ↔ ¬p ∧ b = true := by
  split_ifs with h
  · simp [h]
  · simp [h]

theorem not_lead_and_lt {a b m : UInt8} :
    ¬(c = a ∧ b < m) ↔ (c.toNat = a.toNat → m.toNat ≤ b.toNat) := by
  rw [not_and, ← UInt8.toNat_inj, UInt8.lt_iff_toNat_lt, Nat.not_lt]

theorem not_lead_and_ge {a b m : UInt8} (hm : 0 < m.toNat) :
    ¬(c = a ∧ b ≥ m) ↔ (c.toNat = a.toNat → b.toNat ≤ m.toNat - 1) := by
  rw [not_and, ← UInt8.toNat_inj, ge_iff_le, UInt8.le_iff_toNat_le, Nat.not_le,
    Nat.lt_iff_le_pred hm]

theorem utf8IsValid_one (h : c.toNat ≤ 0x7f) : utf8IsValid (c :: rest) = utf8IsValid rest := by
  have hc : c ≤ 0x7f := h
  conv_lhs => unfold utf8IsValid
  exact if_pos hc

theorem not_one (h : 0x80 ≤ c.toNat) : ¬c ≤ 0x7f := by
  rw [UInt8.le_iff_toNat_le]
  exact Nat.not_le.2 h

theorem utf8IsValid_two (hlo : 0xc0 ≤ c.toNat) (hhi : c.toNat ≤ 0xdf) :
    utf8IsValid (c :: rest) = true
      ↔ ∃ c1 r, rest = c1 :: r ∧ TwoBytes c c1 ∧ utf8IsValid r = true := by
  conv_lhs => unfold utf8IsValid
  rw [if_neg (not_one (by omega)), if_pos ((utf8Masks c).1.2 ⟨hlo, hhi⟩)]
  have hover : ¬c < 0xc2 ↔ 0xc2 ≤ c.toNat := by
    rw [UInt8.lt_iff_toNat_lt, Nat.not_lt]
    rfl
  rw [refuse_iff, hover]
  rcases rest with _ | ⟨c1, r⟩
  · simp
  · show _ ∧ (if c1 &&& 0xc0 ≠ 0x80 then false else utf8IsValid r) = true ↔ _
    rw [refuse_iff, not_not, tail_iff]
    simp [TwoBytes, hhi, and_assoc]

theorem utf8IsValid_three (hlo : 0xe0 ≤ c.toNat) (hhi : c.toNat ≤ 0xef) :
    utf8IsValid (c :: rest) = true
      ↔ ∃ c1 c2 r, rest = c1 :: c2 :: r ∧ ThreeBytes c c1 c2 ∧ utf8IsValid r = true := by
  have htwo : ¬c &&& 0xe0 = 0xc0 := by
    rw [(utf8Masks c).1]
    omega
  conv_lhs => unfold utf8IsValid
  rw [if_neg (not_one (by omega)), if_neg htwo, if_pos ((utf8Masks c).2.1.2 ⟨hlo, hhi⟩)]
  rcases rest with _ | ⟨c1, _ | ⟨c2, r⟩⟩
  · simp
  · simp
  · show (if c1 &&& 0xc0 ≠ 0x80 ∨ c2 &&& 0xc0 ≠ 0x80 then false
      else if c = 0xe0 ∧ c1 < 0xa0 then false
      else if c = 0xed ∧ c1 ≥ 0xa0 then false else utf8IsValid r) = true ↔ _
    rw [refuse_iff, refuse_iff, refuse_iff, ne_eq, ne_eq, tail_iff, tail_iff, not_or, not_not,
      not_not,
      not_lead_and_lt, not_lead_and_ge (by decide)]
    simp [ThreeBytes, hlo, hhi, and_assoc]

theorem utf8IsValid_four (hlo : 0xf0 ≤ c.toNat) (hhi : c.toNat ≤ 0xf7) :
    utf8IsValid (c :: rest) = true
      ↔ ∃ c1 c2 c3 r, rest = c1 :: c2 :: c3 :: r ∧ FourBytes c c1 c2 c3
        ∧ utf8IsValid r = true := by
  have htwo : ¬c &&& 0xe0 = 0xc0 := by
    rw [(utf8Masks c).1]
    omega
  have hthree : ¬c &&& 0xf0 = 0xe0 := by
    rw [(utf8Masks c).2.1]
    omega
  have hlast : ¬c > 0xf4 ↔ c.toNat ≤ 0xf4 := by
    rw [gt_iff_lt, UInt8.lt_iff_toNat_lt, Nat.not_lt]
    rfl
  conv_lhs => unfold utf8IsValid
  rw [if_neg (not_one (by omega)), if_neg htwo, if_neg hthree,
    if_pos ((utf8Masks c).2.2.1.2 ⟨hlo, hhi⟩), refuse_iff, hlast]
  rcases rest with _ | ⟨c1, _ | ⟨c2, _ | ⟨c3, r⟩⟩⟩
  · simp
  · simp
  · simp
  · show _ ∧ (if c1 &&& 0xc0 ≠ 0x80 ∨ c2 &&& 0xc0 ≠ 0x80 ∨ c3 &&& 0xc0 ≠ 0x80 then false
      else if c = 0xf0 ∧ c1 < 0x90 then false
      else if c = 0xf4 ∧ c1 ≥ 0x90 then false else utf8IsValid r) = true ↔ _
    rw [refuse_iff, refuse_iff, refuse_iff, ne_eq, ne_eq, ne_eq, tail_iff, tail_iff, tail_iff,
      not_or,
      not_or, not_not, not_not, not_not, not_lead_and_lt, not_lead_and_ge (by decide)]
    simp [FourBytes, hlo, and_assoc]

theorem utf8IsValid_lone (h : 0x80 ≤ c.toNat ∧ c.toNat < 0xc0 ∨ 0xf7 < c.toNat) :
    utf8IsValid (c :: rest) = false := by
  obtain ⟨h2, h3, h4, -⟩ := utf8Masks c
  conv_lhs => unfold utf8IsValid
  rw [if_neg (not_one (by omega)), if_neg (by rw [h2]; omega), if_neg (by rw [h3]; omega),
    if_neg (by rw [h4]; omega)]

/-- A lap takes off the sequence of one character. -/
theorem utf8IsValid_cons : utf8IsValid (c :: rest) = true
    ↔ ∃ l r, c :: rest = l ++ r ∧ IsUtf8Char l ∧ utf8IsValid r = true := by
  constructor
  · intro h
    by_cases h1 : c.toNat ≤ 0x7f
    · rw [utf8IsValid_one h1] at h
      exact ⟨[c], rest, rfl, h1, h⟩
    by_cases h2 : 0xc0 ≤ c.toNat ∧ c.toNat ≤ 0xdf
    · obtain ⟨c1, r, rfl, hform, hr⟩ := (utf8IsValid_two h2.1 h2.2).1 h
      exact ⟨[c, c1], r, rfl, hform, hr⟩
    by_cases h3 : 0xe0 ≤ c.toNat ∧ c.toNat ≤ 0xef
    · obtain ⟨c1, c2, r, rfl, hform, hr⟩ := (utf8IsValid_three h3.1 h3.2).1 h
      exact ⟨[c, c1, c2], r, rfl, hform, hr⟩
    by_cases h4 : 0xf0 ≤ c.toNat ∧ c.toNat ≤ 0xf7
    · obtain ⟨c1, c2, c3, r, rfl, hform, hr⟩ := (utf8IsValid_four h4.1 h4.2).1 h
      exact ⟨[c, c1, c2, c3], r, rfl, hform, hr⟩
    · rw [utf8IsValid_lone (by omega)] at h
      cases h
  · rintro ⟨l, r, heq, hform, hr⟩
    match l, hform with
    | [a], hform =>
      obtain ⟨rfl, rfl⟩ := List.cons.inj heq
      exact (utf8IsValid_one hform).trans hr
    | [a, b], hform =>
      obtain ⟨rfl, rfl⟩ := List.cons.inj heq
      exact (utf8IsValid_two (by have := hform.1; omega) hform.2.1).2 ⟨b, r, rfl, hform, hr⟩
    | [a, b, d], hform =>
      obtain ⟨rfl, rfl⟩ := List.cons.inj heq
      exact (utf8IsValid_three hform.1 hform.2.1).2 ⟨b, d, r, rfl, hform, hr⟩
    | [a, b, d, e], hform =>
      obtain ⟨rfl, rfl⟩ := List.cons.inj heq
      exact (utf8IsValid_four hform.1 (by have := hform.2.1; omega)).2 ⟨b, d, e, r, rfl, hform, hr⟩

/-- The validator accepts the encodings of characters, put together in any number, and nothing
else. -/
theorem utf8IsValid_iff : ∀ s : Bytes,
    utf8IsValid s = true ↔ ∃ cs : List Char, s = cs.flatMap String.utf8EncodeChar
  | [] => iff_of_true rfl ⟨[], rfl⟩
  | c :: rest => by
    rw [utf8IsValid_cons]
    constructor
    · rintro ⟨l, r, heq, hform, hr⟩
      have hlen : r.length < (c :: rest).length := by
        rw [heq, List.length_append]
        have := hform.length_pos
        omega
      obtain ⟨cs, hcs⟩ := (utf8IsValid_iff r).1 hr
      obtain ⟨ch, hch⟩ := isUtf8Char_iff.1 hform
      exact ⟨ch :: cs, by rw [heq, List.flatMap_cons, hch, hcs]⟩
    · rintro ⟨cs, hcs⟩
      cases cs with
      | nil => cases hcs
      | cons ch cs =>
        have hlen : (cs.flatMap String.utf8EncodeChar).length < (c :: rest).length := by
          rw [hcs, List.flatMap_cons, List.length_append]
          have := (isUtf8Char_encode ch).length_pos
          omega
        exact ⟨_, _, hcs, isUtf8Char_encode ch, (utf8IsValid_iff _).2 ⟨cs, rfl⟩⟩
termination_by s => s.length
decreasing_by all_goals exact hlen

/-- The edges of the surrogates and of the last plane. -/
example : utf8IsValid [0xed, 0x9f, 0xbf, 0xee, 0x80, 0x80, 0xf4, 0x8f, 0xbf, 0xbf] = true
    ∧ utf8IsValid [0xed, 0xa0, 0x80] = false ∧ utf8IsValid [0xf4, 0x90, 0x80, 0x80] = false := by
  decide

end Laps

end BonsaiChain
