import BonsaiChain.Lib.LittleEndian
import Mathlib.Tactic.Linarith
import Mathlib.Tactic.Positivity
import Mathlib.Tactic.Ring
import Mathlib.Tactic.SplitIfs

/-!
# Sign and magnitude

Integers in little-endian bytes with the sign in the highest bit: what bytes mean, which of the
spellings of an integer is the shortest, and how a longer one is stripped down to it.
-/

namespace BonsaiChain.Lib

/-- The integer of little-endian bytes with the sign in the highest bit. -/
def smValue (bs : List UInt8) : ℤ :=
  match bs.getLast? with
  | none => 0
  | some top =>
    let mag : ℤ := leNat (bs.dropLast ++ [top &&& 0x7F])
    if top &&& 0x80 = 0 then mag else -mag

/-- Drop the top byte, above `rest` from the most significant byte down, while it has nothing but a
sign and the byte below has room for that. -/
def stripTop (top : UInt8) : List UInt8 → List UInt8
  | [] => if top &&& 0x7F = 0 then [] else [top]
  | next :: rest =>
    if top &&& 0x7F = 0 ∧ next &&& 0x80 = 0 then stripTop (next ||| top) rest
    else top :: next :: rest

/-- The bytes without redundant bytes at the top, with the same sign. -/
def smStrip (bs : List UInt8) : List UInt8 :=
  match bs.reverse with
  | [] => []
  | top :: rest => (stripTop top rest).reverse

/-- The bytes mean `n`, and all others that do are longer. -/
def IsShortest (n : ℤ) (bs : List UInt8) : Prop :=
  smValue bs = n ∧ ∀ bs', smValue bs' = n → bs' ≠ bs → bs.length < bs'.length

section Byte

/-- The sign bit of the top byte, tested and set. -/
theorem sign_bit (b : UInt8) : (b &&& 0x80 = 0 ↔ b.toNat < 128)
    ∧ (b.toNat < 128 → b ||| 0x80 = UInt8.ofNat (b.toNat + 128)) := by
  revert b
  apply forall_byte
  decide +kernel

/-- The bits of the top byte under the sign. -/
theorem magnitude_bits (b : UInt8) :
    (b &&& 0x7F).toNat = b.toNat % 128 ∧ (b &&& 0x7F = 0 ↔ b.toNat % 128 = 0) := by
  revert b
  apply forall_byte
  decide +kernel

theorem toNat_set_sign {b : UInt8} (h : b.toNat < 128) : (b ||| 0x80).toNat = b.toNat + 128 := by
  rw [(sign_bit b).2 h, UInt8.toNat_ofNat', Nat.mod_eq_of_lt (by omega)]

/-- A sign that moves down to a byte with room for it. -/
theorem toNat_or_sign {next top : UInt8} (htop : top.toNat % 128 = 0) (hnext : next.toNat < 128) :
    (next ||| top).toNat = next.toNat + top.toNat := by
  have hlt := top.toNat_lt
  have hcase : top = 0 ∨ top = 0x80 := by
    rw [← UInt8.toNat_inj, ← UInt8.toNat_inj]
    change top.toNat = 0 ∨ top.toNat = 128
    omega
  rcases hcase with rfl | rfl
  · simp
  · exact toNat_set_sign hnext

end Byte

section Value

variable {bs rest : List UInt8} {top : UInt8} {n : ℤ}

@[simp] theorem smValue_nil : smValue [] = 0 := rfl

theorem smValue_concat (bs : List UInt8) (top : UInt8) :
    smValue (bs ++ [top]) = if top.toNat < 128 then (leNat bs + 256 ^ bs.length * top.toNat : ℤ)
      else -(leNat bs + 256 ^ bs.length * (top.toNat - 128)) := by
  have hlt := top.toNat_lt
  unfold smValue
  simp only [List.getLast?_concat, List.dropLast_concat, (sign_bit top).1, leNat_append, leNat,
    (magnitude_bits top).1]
  split_ifs with h
  · rw [Nat.mod_eq_of_lt h]
    push_cast
    ring
  · have hmod : ((top.toNat % 128 : ℕ) : ℤ) = top.toNat - 128 := by omega
    push_cast
    push_cast at hmod
    rw [hmod]
    ring

theorem natAbs_smValue_concat (bs : List UInt8) (top : UInt8) :
    (smValue (bs ++ [top])).natAbs = leNat bs + 256 ^ bs.length * (top.toNat % 128) := by
  have hlt := top.toNat_lt
  rw [smValue_concat]
  split_ifs with h
  · rw [Nat.mod_eq_of_lt h]
    norm_cast
  · have hmod : (top.toNat : ℤ) - 128 = ((top.toNat % 128 : ℕ) : ℤ) := by omega
    rw [hmod, Int.natAbs_neg]
    norm_cast

theorem natAbs_smValue_lt (bs : List UInt8) (top : UInt8) :
    (smValue (bs ++ [top])).natAbs < 256 ^ bs.length * 128 := by
  have hbs := leNat_lt bs
  have hle : 256 ^ bs.length * (top.toNat % 128) ≤ 256 ^ bs.length * 127 :=
    Nat.mul_le_mul_left _ (by omega)
  rw [natAbs_smValue_concat]
  omega

/-- The bytes of a number, half of which are those of negative integers. -/
theorem smValue_leBytes {w m : ℕ} (h : m < 256 ^ w * 256) :
    smValue (leBytes (w + 1) m)
      = if m < 256 ^ w * 128 then (m : ℤ) else -(m - 256 ^ w * 128 : ℤ) := by
  have hpos : 0 < 256 ^ w := by positivity
  have hlt : m / 256 ^ w < 256 := Nat.div_lt_of_lt_mul h
  have hdiv : ((256 ^ w : ℤ) * ((m / 256 ^ w : ℕ) : ℤ) + ((m % 256 ^ w : ℕ) : ℤ)) = m := by
    exact_mod_cast Nat.div_add_mod m (256 ^ w)
  have hsign : m / 256 ^ w < 128 ↔ m < 256 ^ w * 128 := by
    rw [Nat.div_lt_iff_lt_mul hpos, mul_comm]
  rw [leBytes_succ, smValue_concat, leNat_leBytes, leBytes_length, UInt8.toNat_ofNat',
    Nat.mod_eq_of_lt hlt]
  simp only [hsign]
  split_ifs with hm
  · linarith
  · rw [neg_inj]
    linarith

/-- A non-zero integer has one spelling of each length. -/
theorem smValue_inj : ∀ {as bs : List UInt8}, as.length = bs.length → smValue as = smValue bs →
    smValue as ≠ 0 → as = bs := by
  intro as bs hlen heq hne
  rcases List.eq_nil_or_concat as with rfl | ⟨as, a, rfl⟩
  · simp at hne
  rcases List.eq_nil_or_concat bs with rfl | ⟨bs, b, rfl⟩
  · simp at hlen
  simp only [List.concat_eq_append, List.length_append, List.length_singleton,
    Nat.add_right_cancel_iff] at *
  have ha := a.toNat_lt
  have hb := b.toNat_lt
  have hpos : 0 < 256 ^ bs.length := by positivity
  have habs : leNat as + 256 ^ bs.length * (a.toNat % 128)
      = leNat bs + 256 ^ bs.length * (b.toNat % 128) := by
    have h := congrArg Int.natAbs heq
    rwa [natAbs_smValue_concat, natAbs_smValue_concat, hlen] at h
  have hlow := leNat_lt as
  have hlow' := leNat_lt bs
  rw [hlen] at hlow
  have hrest : leNat as = leNat bs := by
    have h := congrArg (· % 256 ^ bs.length) habs
    simpa [Nat.mod_eq_of_lt hlow, Nat.mod_eq_of_lt hlow'] using h
  have hmod : a.toNat % 128 = b.toNat % 128 := by
    rw [hrest] at habs
    exact Nat.eq_of_mul_eq_mul_left hpos (by omega)
  have hbytes : as = bs := by rw [← leBytes_leNat as, ← leBytes_leNat bs, hlen, hrest]
  subst hbytes
  have hsign : a.toNat < 128 ↔ b.toNat < 128 := by
    by_contra hdiff
    have hneg : smValue (as ++ [a]) = -smValue (as ++ [b]) := by
      rw [smValue_concat, smValue_concat]
      have hcast : (a.toNat : ℤ) % 128 = b.toNat % 128 := by exact_mod_cast hmod
      split_ifs with h1 h2 h2
      · exact absurd (iff_of_true h1 h2) hdiff
      · rw [show (b.toNat : ℤ) - 128 = a.toNat by omega, neg_neg]
      · rw [show (a.toNat : ℤ) - 128 = b.toNat by omega]
      · exact absurd (iff_of_false h1 h2) hdiff
    omega
  have hab : a = b := UInt8.toNat_inj.1 (by omega)
  rw [hab]

end Value

section Shortest

/-- No byte at the top is there for the sign alone, while the byte below has room for it. -/
def Tight : List UInt8 → Prop
  | [] => True
  | [top] => top.toNat % 128 ≠ 0
  | top :: next :: _ => top.toNat % 128 ≠ 0 ∨ 128 ≤ next.toNat

theorem tight_of_mod_ne {top : UInt8} {rest : List UInt8} (h : top.toNat % 128 ≠ 0) :
    Tight (top :: rest) := by
  cases rest with
  | nil => exact h
  | cons next rest => exact .inl h

/-- How large the integer of tight bytes is. -/
theorem le_natAbs_of_tight {top : UInt8} {rest : List UInt8} (h : Tight (top :: rest)) :
    256 ^ rest.length ≤ (smValue (top :: rest).reverse).natAbs * 2
      ∧ (smValue (top :: rest).reverse).natAbs ≠ 0 := by
  have hpos : 0 < 256 ^ rest.length := by positivity
  rw [List.reverse_cons, natAbs_smValue_concat, List.length_reverse]
  have hmag : top.toNat % 128 ≠ 0 → 256 ^ rest.length ≤ 256 ^ rest.length * (top.toNat % 128) :=
    fun hne => Nat.le_mul_of_pos_right _ (by omega)
  rcases rest with _ | ⟨next, rest⟩
  · have := hmag h
    omega
  · rcases h with h | h
    · have := hmag h
      omega
    · have hnext : 256 ^ rest.length * 128 ≤ leNat (next :: rest).reverse := by
        rw [List.reverse_cons, leNat_append, List.length_reverse]
        have : 256 ^ rest.length * 128 ≤ 256 ^ rest.length * leNat [next] :=
          Nat.mul_le_mul_left _ (by simpa [leNat] using h)
        omega
      have hpos' : 0 < 256 ^ rest.length := by positivity
      rw [List.length_cons, pow_succ] at *
      omega

/-- Tight bytes are the shortest that mean what they mean. -/
theorem isShortest_of_tight {bs : List UInt8} (h : Tight bs.reverse) :
    IsShortest (smValue bs) bs := by
  refine ⟨rfl, fun bs' hvalue hne => ?_⟩
  rcases hr : bs.reverse with _ | ⟨top, rest⟩
  · rw [List.reverse_eq_nil_iff] at hr
    subst hr
    exact List.length_pos_iff.2 hne
  · rw [hr] at h
    have hbs : bs = (top :: rest).reverse := by rw [← hr, List.reverse_reverse]
    obtain ⟨hle, hnz⟩ := le_natAbs_of_tight h
    rw [← hbs] at hle hnz
    have hlen : bs.length = rest.length + 1 := by simp [hbs]
    rcases List.eq_nil_or_concat bs' with rfl | ⟨init, top', rfl⟩
    · rw [← hvalue] at hnz
      simp at hnz
    · rw [List.concat_eq_append] at *
      have hlt := natAbs_smValue_lt init top'
      rw [hvalue] at hlt
      by_contra hshort
      rw [List.length_append, List.length_singleton, hlen] at hshort
      have hlength : init.length = rest.length := by
        by_contra hcase
        have hpow : 256 ^ (init.length + 1) ≤ 256 ^ rest.length :=
          Nat.pow_le_pow_right (by omega) (by omega)
        rw [pow_succ] at hpow
        omega
      exact hne (smValue_inj (by simp [hlength, hlen]) hvalue (by omega))

theorem isShortest_nil : IsShortest (smValue []) [] := isShortest_of_tight trivial

theorem IsShortest.unique {n : ℤ} {as bs : List UInt8} (ha : IsShortest n as)
    (hb : IsShortest n bs) : as = bs := by
  by_contra hne
  have h1 := ha.2 bs hb.1 (Ne.symm hne)
  have h2 := hb.2 as ha.1 hne
  omega

end Shortest

section Strip

/-- Stripping keeps what the bytes mean, and leaves tight ones. -/
theorem stripTop_spec : ∀ (rest : List UInt8) (top : UInt8),
    smValue (stripTop top rest).reverse = smValue (top :: rest).reverse
      ∧ Tight (stripTop top rest)
  | [], top => by
    unfold stripTop
    split_ifs with h
    · rw [(magnitude_bits top).2] at h
      have hv := natAbs_smValue_concat [] top
      rw [h] at hv
      refine ⟨?_, trivial⟩
      simp only [List.reverse_nil, smValue_nil, List.reverse_singleton]
      exact (Int.natAbs_eq_zero.1 (by simpa [leNat] using hv)).symm
    · rw [(magnitude_bits top).2] at h
      exact ⟨rfl, h⟩
  | next :: rest, top => by
    unfold stripTop
    split_ifs with h
    · rw [(magnitude_bits top).2, (sign_bit next).1] at h
      obtain ⟨hvalue, htight⟩ := stripTop_spec rest (next ||| top)
      refine ⟨hvalue.trans ?_, htight⟩
      have hor := toNat_or_sign h.1 h.2
      have htop := top.toNat_lt
      simp only [List.reverse_cons, smValue_concat, leNat_append, List.length_append,
        List.length_singleton, hor, leNat]
      rcases (show top.toNat = 0 ∨ top.toNat = 128 by omega) with h0 | h0
      · simp [h0, h.2]
      · simp [h0]
    · rw [(magnitude_bits top).2, (sign_bit next).1] at h
      refine ⟨rfl, ?_⟩
      show top.toNat % 128 ≠ 0 ∨ 128 ≤ next.toNat
      omega

/-- Stripping ends in the shortest bytes. -/
theorem isShortest_smStrip (bs : List UInt8) : IsShortest (smValue bs) (smStrip bs) := by
  unfold smStrip
  rcases hr : bs.reverse with _ | ⟨top, rest⟩
  · rw [List.reverse_eq_nil_iff] at hr
    subst hr
    exact isShortest_nil
  · obtain ⟨hvalue, htight⟩ := stripTop_spec rest top
    have hbs : bs = (top :: rest).reverse := by rw [← hr, List.reverse_reverse]
    rw [hbs, ← hvalue]
    exact isShortest_of_tight (by rwa [List.reverse_reverse])

end Strip

end BonsaiChain.Lib
