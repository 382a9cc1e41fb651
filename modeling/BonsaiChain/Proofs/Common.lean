import BonsaiChain.Common

/-!
# The hex codec

Encoding is the right inverse of decoding, and its output is lower case.
-/

namespace BonsaiChain

/-- The lower case of a digit. -/
def lowerDigit (c : UInt8) : UInt8 := if 65 ≤ c ∧ c ≤ 70 then c - 65 + 97 else c

theorem hexToLower_eq (s : CString) : hexToLower s = s.map lowerDigit := rfl

/-- What the codec does to one byte. -/
theorem hexByte : ∀ b : UInt8,
    (hexNibble (hexDigit (b >>> 4)) = some (b >>> 4)
      ∧ hexNibble (hexDigit (b &&& 15)) = some (b &&& 15)
      ∧ ((b >>> 4) <<< 4 ||| (b &&& 15)) = b)
    ∧ ((b >>> 4).toNat < 16 ∧ (b &&& 15).toNat < 16)
    ∧ (b.toNat < 16 → 48 ≤ hexDigit b ∧ hexDigit b ≤ 57 ∨ 97 ≤ hexDigit b ∧ hexDigit b ≤ 102)
    ∧ (hexNibble b).all (fun n => decide (n.toNat < 16 ∧ lowerDigit b = hexDigit n)) = true
    ∧ hexNibble (lowerDigit b) = hexNibble b ∧ lowerDigit (lowerDigit b) = lowerDigit b
    ∧ ((hexNibble b).isSome → b ≠ 45 ∧ b ≠ 43 ∧ b ≠ 120 ∧ b ≠ 88) := by
  apply Lib.forall_byte
  decide +kernel

/-- The two digits of a byte decode to its halves, which put the byte together again. -/
theorem nibbles (b : UInt8) :
    hexNibble (hexDigit (b >>> 4)) = some (b >>> 4)
      ∧ hexNibble (hexDigit (b &&& 15)) = some (b &&& 15)
      ∧ ((b >>> 4) <<< 4 ||| (b &&& 15)) = b :=
  (hexByte b).1

@[simp] theorem hexDecode_hexEncode : ∀ bs : Bytes, hexDecode (hexEncode bs) = .ok bs
  | [] => rfl
  | b :: bs => by
    obtain ⟨h1, h2, h3⟩ := nibbles b
    simp only [hexEncode, hexDecode, h1, h2, hexDecode_hexEncode bs, h3]

-- digits of both cases are read
example : hexDecode [65, 102] = .ok [0xaf] := by decide +kernel

@[simp] theorem hexEncode_length : ∀ bs : Bytes, (hexEncode bs).length = 2 * bs.length
  | [] => rfl
  | b :: bs => by
    simp only [hexEncode, List.length_cons, hexEncode_length bs]
    omega

theorem hexEncode_digit : ∀ {bs : Bytes}, ∀ c ∈ hexEncode bs,
    48 ≤ c ∧ c ≤ 57 ∨ 97 ≤ c ∧ c ≤ 102
  | b :: bs, c, hc => by
    obtain ⟨-, ⟨hhigh, hlow⟩, -⟩ := hexByte b
    rw [hexEncode, List.mem_cons, List.mem_cons] at hc
    rcases hc with rfl | rfl | hc
    · exact (hexByte _).2.2.1 hhigh
    · exact (hexByte _).2.2.1 hlow
    · exact hexEncode_digit c hc

theorem hexEncode_inj {as bs : Bytes} (h : hexEncode as = hexEncode bs) : as = bs := by
  have h' := congrArg hexDecode h
  simpa using h'

theorem hexDecode_length : ∀ {s : CString} {bs : Bytes}, hexDecode s = .ok bs →
    s.length = 2 * bs.length
  | [], bs, h => by
    obtain rfl : [] = bs := by simpa [hexDecode] using h
    rfl
  | [_], bs, h => by simp [hexDecode] at h
  | hi :: lo :: rest, bs, h => by
    simp only [hexDecode] at h
    split at h
    · rename_i h' l' bs' _ _ hrest
      obtain rfl : _ = bs := by simpa using h
      have := hexDecode_length hrest
      simp only [List.length_cons]
      omega
    · simp at h

/-- The lower case of a digit is the digit of its value. -/
theorem hexDigit_of_hexNibble (c : UInt8) : ∀ n, hexNibble c = some n →
    n.toNat < 16 ∧ lowerDigit c = hexDigit n := by
  intro n hn
  simpa [hn] using (hexByte c).2.2.2.1

/-- Two digits make the byte whose halves they are. -/
theorem hexDigits_byte (h l : UInt8) (hh : h.toNat < 16) (hl : l.toNat < 16) :
    hexDigit ((h <<< 4 ||| l) >>> 4) = hexDigit h
      ∧ hexDigit ((h <<< 4 ||| l) &&& 15) = hexDigit l := by
  have hbyte : (h <<< 4 ||| l).toNat = 2 ^ 4 * h.toNat + l.toNat := by
    rw [UInt8.toNat_or, UInt8.toNat_shiftLeft, show (4 : UInt8).toNat % 8 = 4 from rfl,
      Nat.mod_eq_of_lt (by rw [Nat.shiftLeft_eq]; omega), ← Nat.shiftLeft_add_eq_or_of_lt hl,
      Nat.shiftLeft_eq, Nat.mul_comm]
  have hhigh : (h <<< 4 ||| l) >>> 4 = h := by
    apply UInt8.toNat_inj.mp
    rw [UInt8.toNat_shiftRight, hbyte, show (4 : UInt8).toNat % 8 = 4 from rfl,
      Nat.shiftRight_eq_div_pow]
    omega
  have hlow : (h <<< 4 ||| l) &&& 15 = l := by
    apply UInt8.toNat_inj.mp
    rw [UInt8.toNat_and, hbyte, show (15 : UInt8).toNat = 2 ^ 4 - 1 from rfl,
      Nat.and_two_pow_sub_one_eq_mod]
    omega
  rw [hhigh, hlow]
  exact ⟨rfl, rfl⟩

/-- Encoding is the left inverse of decoding up to letter case. -/
theorem hexEncode_of_hexDecode : ∀ {s : CString} {bs : Bytes}, hexDecode s = .ok bs →
    hexEncode bs = hexToLower s
  | [], bs, h => by
    obtain rfl : [] = bs := by simpa [hexDecode] using h
    rfl
  | [_], bs, h => by simp [hexDecode] at h
  | hi :: lo :: rest, bs, h => by
    simp only [hexDecode] at h
    split at h
    · rename_i n m bs' hn hm hrest
      obtain rfl : _ = bs := by simpa using h
      obtain ⟨hn16, hhi⟩ := hexDigit_of_hexNibble hi n hn
      obtain ⟨hm16, hlo⟩ := hexDigit_of_hexNibble lo m hm
      obtain ⟨hd1, hd2⟩ := hexDigits_byte n m hn16 hm16
      have ih := hexEncode_of_hexDecode hrest
      rw [hexToLower_eq] at ih
      simp only [hexEncode, hexToLower_eq, List.map_cons, hd1, hd2, hhi, hlo, ih]
    · simp at h

theorem hexToLower_hexToLower (s : CString) : hexToLower (hexToLower s) = hexToLower s := by
  rw [hexToLower_eq, hexToLower_eq, List.map_map]
  exact List.map_congr_left fun c _ => (hexByte c).2.2.2.2.2.1

theorem hexNibble_toLower (c : UInt8) : hexNibble (lowerDigit c) = hexNibble c :=
  (hexByte c).2.2.2.2.1

/-- Decoding does not see letter case. -/
theorem hexDecode_hexToLower : ∀ s : CString, hexDecode (hexToLower s) = hexDecode s
  | [] => rfl
  | [_] => rfl
  | hi :: lo :: rest => by
    have ih := hexDecode_hexToLower rest
    rw [hexToLower_eq] at ih ⊢
    simp only [List.map_cons, hexDecode, hexNibble_toLower, ih]

theorem hexDecode_ok_iff : ∀ {s : CString},
    (∃ bs, hexDecode s = .ok bs) ↔ s.length % 2 = 0 ∧ ∀ c ∈ s, (hexNibble c).isSome
  | [] => by simp [hexDecode]
  | [_] => by simp [hexDecode]
  | hi :: lo :: rest => by
    have ih := hexDecode_ok_iff (s := rest)
    rw [List.forall_mem_cons, List.forall_mem_cons, List.length_cons, List.length_cons,
      show (rest.length + 1 + 1) % 2 = rest.length % 2 by omega]
    simp only [hexDecode]
    rcases hexNibble hi with _ | h
    · simp
    rcases hexNibble lo with _ | l
    · simp
    cases hr : hexDecode rest with
    | error e =>
      rw [hr] at ih
      simpa using ih
    | ok bs =>
      rw [hr] at ih
      simpa using ih

theorem isHexLen_iff {s : CString} {n : ℕ} :
    isHexLen s n = true ↔ ∃ bs : Bytes, bs.length = n ∧ hexDecode s = .ok bs := by
  unfold isHexLen
  rw [Bool.and_eq_true, beq_iff_eq, List.all_eq_true]
  constructor
  · rintro ⟨hlen, hall⟩
    obtain ⟨bs, hbs⟩ := hexDecode_ok_iff.mpr ⟨by omega, hall⟩
    have := hexDecode_length hbs
    exact ⟨bs, by omega, hbs⟩
  · rintro ⟨bs, rfl, hbs⟩
    exact ⟨hexDecode_length hbs, (hexDecode_ok_iff.mp ⟨bs, hbs⟩).2⟩

theorem hexDecodeFixed_eq_ok {s : CString} {n : ℕ} {bs : Bytes} :
    hexDecodeFixed s n = .ok bs ↔ bs.length = n ∧ hexDecode s = .ok bs := by
  unfold hexDecodeFixed
  split_ifs with h
  · simp only [false_iff, not_and]
    intro hn hd
    have := hexDecode_length hd
    omega
  · simp only [iff_and_self]
    intro hd
    have := hexDecode_length hd
    omega

theorem hexDecodeFixed_hexEncode {bs : Bytes} {n : ℕ} (h : bs.length = n) :
    hexDecodeFixed (hexEncode bs) n = .ok bs := by
  rw [hexDecodeFixed_eq_ok]
  exact ⟨h, hexDecode_hexEncode bs⟩

theorem byteBufAppend_eq_ok {out data r : Bytes} (h : byteBufAppend out data = .ok r) :
    r = out ++ data := by
  unfold byteBufAppend at h
  split_ifs at h with h0
  · obtain rfl := List.length_eq_zero_iff.mp h0
    simpa using h.symm
  · exact (Except.ok.inj h).symm

theorem byteBufAppend_nil_eq_ok {data r : Bytes} :
    byteBufAppend [] data = .ok r ↔ r = data ∧ data.length < 2 ^ 64 := by
  unfold byteBufAppend sizeMax
  split_ifs with h1 h2
  · rw [List.length_eq_zero_iff] at h1
    subst h1
    simp [eq_comm]
  · simp only [List.length_nil] at h2
    simp only [false_iff, not_and]
    omega
  · simp only [List.length_nil] at h2
    simp only [List.nil_append, Except.ok.injEq, eq_comm (a := data), iff_self_and]
    omega

/-- A hash given by its digits. -/
def hashOf (n : ℕ) : Block 32 := ⟨(Lib.leBytes 32 n).reverse, by simp⟩

/-- A buffer grows by what is appended while its length is a `size_t`. -/
theorem byteBufAppend_of_lt {pre data : Bytes} (h : pre.length + data.length < 2 ^ 64) :
    byteBufAppend pre data = .ok (pre ++ data) := by
  unfold byteBufAppend sizeMax
  split_ifs with h0 h1
  · simp [List.length_eq_zero_iff.1 h0]
  · omega
  · rfl

theorem byteBufAppend_nil_eq_error {data : Bytes} (h : 2 ^ 64 ≤ data.length) :
    byteBufAppend [] data = .error .enomem := by
  unfold byteBufAppend sizeMax
  rw [List.length_nil]
  split_ifs with h1 h2
  · omega
  · rfl
  · omega

theorem toNat_ofNat_of_lt {n : ℕ} (h : n < 256) : (UInt8.ofNat n).toNat = n := by
  rw [UInt8.toNat_ofNat', Nat.mod_eq_of_lt h]

theorem isDigit_toNat {c : Char} (h : c.isDigit) : 48 ≤ c.toNat ∧ c.toNat ≤ 57 := by
  simp only [Char.isDigit, Bool.and_eq_true, decide_eq_true_eq] at h
  exact ⟨UInt32.le_iff_toNat_le.mp h.1, UInt32.le_iff_toNat_le.mp h.2⟩

theorem digit_of_isDigit {c : Char} (h : c.isDigit) :
    48 ≤ UInt8.ofNat c.toNat ∧ UInt8.ofNat c.toNat ≤ 57 := by
  obtain ⟨hlo, hhi⟩ := isDigit_toNat h
  rw [UInt8.le_iff_toNat_le, UInt8.le_iff_toNat_le, toNat_ofNat_of_lt (by omega)]
  exact ⟨hlo, hhi⟩

theorem decimal_digit {n : ℕ} {c : UInt8} (h : c ∈ decimal n) : 48 ≤ c ∧ c ≤ 57 := by
  obtain ⟨d, hd, rfl⟩ := List.mem_map.mp h
  exact digit_of_isDigit (Nat.isDigit_of_mem_toDigits (by omega) (by omega) hd)

theorem decimal_ne_nil {n : ℕ} : decimal n ≠ [] := by
  simp [decimal, Nat.toDigits_ne_nil]

end BonsaiChain
