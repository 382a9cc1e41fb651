import Mathlib.Data.List.Basic
import Mathlib.Tactic.SplitIfs

/-!
# UTF-8

The byte sequences that encode one character, by their lead byte and what may follow it.
-/

namespace BonsaiChain.Lib

section Forms

variable {a b c d : UInt8}

/-- A byte behind the first one. -/
def IsTail (b : UInt8) : Prop := 0x80 ≤ b.toNat ∧ b.toNat ≤ 0xbf

def OneByte (a : UInt8) : Prop := a.toNat ≤ 0x7f

def TwoBytes (a b : UInt8) : Prop := 0xc2 ≤ a.toNat ∧ a.toNat ≤ 0xdf ∧ IsTail b

/-- No overlong form and no surrogate. -/
def ThreeBytes (a b c : UInt8) : Prop :=
  0xe0 ≤ a.toNat ∧ a.toNat ≤ 0xef ∧ IsTail b ∧ IsTail c
    ∧ (a.toNat = 0xe0 → 0xa0 ≤ b.toNat) ∧ (a.toNat = 0xed → b.toNat ≤ 0x9f)

/-- No overlong form and nothing above the last plane. -/
def FourBytes (a b c d : UInt8) : Prop :=
  0xf0 ≤ a.toNat ∧ a.toNat ≤ 0xf4 ∧ IsTail b ∧ IsTail c ∧ IsTail d
    ∧ (a.toNat = 0xf0 → 0x90 ≤ b.toNat) ∧ (a.toNat = 0xf4 → b.toNat ≤ 0x8f)

/-- The sequences of one character. -/
def IsUtf8Char : List UInt8 → Prop
  | [a] => OneByte a
  | [a, b] => TwoBytes a b
  | [a, b, c] => ThreeBytes a b c
  | [a, b, c, d] => FourBytes a b c d
  | _ => False

theorem IsUtf8Char.length_pos : ∀ {l : List UInt8}, IsUtf8Char l → 0 < l.length
  | [], h => h.elim
  | _ :: _, _ => Nat.succ_pos _

end Forms

section Encoding

variable {l : List UInt8} {a b c d : UInt8} {v : ℕ}

theorem exists_char (h : v.isValidChar) : ∃ ch : Char, ch.val.toNat = v := ⟨Char.ofNatAux v h, rfl⟩

theorem char_valid (ch : Char) :
    ch.val.toNat < 0xd800 ∨ 0xdfff < ch.val.toNat ∧ ch.val.toNat < 0x110000 := ch.valid

theorem eq_ofNat {n : ℕ} (h : a.toNat = n) : a = UInt8.ofNat n := by
  rw [← h, UInt8.ofNat_toNat]

/-- A character is encoded as a sequence of one. -/
theorem isUtf8Char_encode (ch : Char) : IsUtf8Char (String.utf8EncodeChar ch) := by
  have hvalid := char_valid ch
  unfold String.utf8EncodeChar
  simp only
  split_ifs with h1 h2 h3
  · simp only [IsUtf8Char, OneByte, UInt8.toNat_ofNat']
    omega
  · simp only [IsUtf8Char, TwoBytes, IsTail, UInt8.toNat_ofNat']
    omega
  · simp only [IsUtf8Char, ThreeBytes, IsTail, UInt8.toNat_ofNat']
    omega
  · simp only [IsUtf8Char, FourBytes, IsTail, UInt8.toNat_ofNat']
    omega

/-- Every sequence of one character encodes one. -/
theorem exists_char_of_isUtf8Char : ∀ {l : List UInt8}, IsUtf8Char l →
    ∃ ch : Char, l = String.utf8EncodeChar ch
  | [a], h => by
    have hlt : a.toNat ≤ 0x7f := h
    obtain ⟨ch, hv⟩ := exists_char (v := a.toNat) (.inl (by omega))
    refine ⟨ch, ?_⟩
    unfold String.utf8EncodeChar
    simp only [hv]
    rw [if_pos hlt, UInt8.ofNat_toNat]
  | [a, b], h => by
    obtain ⟨hlo, hhi, hb, hb'⟩ := h
    obtain ⟨ch, hv⟩ := exists_char (v := (a.toNat - 0xc0) * 64 + (b.toNat - 0x80))
      (.inl (by omega))
    refine ⟨ch, ?_⟩
    unfold String.utf8EncodeChar
    simp only [hv]
    rw [if_neg (by omega), if_pos (by omega), ← eq_ofNat, ← eq_ofNat]
    · omega
    · omega
  | [a, b, c], h => by
    obtain ⟨hlo, hhi, ⟨hb, hb'⟩, ⟨hc, hc'⟩, hover, hsurrogate⟩ := h
    obtain ⟨ch, hv⟩ := exists_char
      (v := (a.toNat - 0xe0) * 4096 + (b.toNat - 0x80) * 64 + (c.toNat - 0x80))
      (show _ ∨ _ by omega)
    refine ⟨ch, ?_⟩
    unfold String.utf8EncodeChar
    simp only [hv]
    rw [if_neg (by omega), if_neg (by omega), if_pos (by omega), ← eq_ofNat, ← eq_ofNat, ← eq_ofNat]
    · omega
    · omega
    · omega
  | [a, b, c, d], h => by
    obtain ⟨hlo, hhi, ⟨hb, hb'⟩, ⟨hc, hc'⟩, ⟨hd, hd'⟩, hover, hlast⟩ := h
    obtain ⟨ch, hv⟩ := exists_char
      (v := (a.toNat - 0xf0) * 262144 + (b.toNat - 0x80) * 4096 + (c.toNat - 0x80) * 64
        + (d.toNat - 0x80)) (show _ ∨ _ by omega)
    refine ⟨ch, ?_⟩
    unfold String.utf8EncodeChar
    simp only [hv]
    rw [if_neg (by omega), if_neg (by omega), if_neg (by omega), ← eq_ofNat, ← eq_ofNat, ← eq_ofNat,
      ← eq_ofNat]
    · omega
    · omega
    · omega
    · omega

theorem isUtf8Char_iff : IsUtf8Char l ↔ ∃ ch : Char, l = String.utf8EncodeChar ch := by
  constructor
  · exact exists_char_of_isUtf8Char
  · rintro ⟨ch, rfl⟩
    exact isUtf8Char_encode ch

end Encoding

end BonsaiChain.Lib
