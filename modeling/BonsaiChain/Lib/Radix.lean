import Mathlib.Data.List.TakeWhile
import Mathlib.Data.Nat.Digits.Lemmas

/-!
# Radix conversion in place

A buffer of digits, the highest first, takes a further digit of another radix by one walk of
multiplication and carry from its last place down, which stops where the higher places are still
zero. In a buffer that is wide enough the buffer holds the number that was read.
-/

namespace BonsaiChain.Lib

section Digits

/-- The number that digits spell, the highest first. -/
def ofBe (base : ℕ) (ds : List ℕ) : ℕ := Nat.ofDigits base ds.reverse

variable {base d n : ℕ} {ds : List ℕ}

@[simp] theorem ofBe_nil : ofBe base [] = 0 := rfl

@[simp] theorem ofBe_snoc : ofBe base (ds ++ [d]) = d + base * ofBe base ds := by
  simp [ofBe, Nat.ofDigits_cons]

/-- The number as it is read, digit by digit. -/
theorem foldl_eq_ofBe (base : ℕ) (ds : List ℕ) :
    ds.foldl (fun n d => n * base + d) 0 = ofBe base ds := by
  induction ds using List.reverseRecOn with
  | nil => rfl
  | append_singleton ds d ih =>
    rw [List.foldl_append, List.foldl_cons, List.foldl_nil, ih, ofBe_snoc]
    ring

@[simp] theorem ofBe_singleton : ofBe base [d] = d := by simp [ofBe]

theorem ofBe_zeros (h : ∀ d ∈ ds, d = 0) : ofBe base ds = 0 := by
  rw [List.eq_replicate_of_mem h, ofBe, List.reverse_replicate]
  exact Nat.ofDigits_replicate_zero

theorem ofBe_lt (hbase : 1 < base) (h : ∀ d ∈ ds, d < base) : ofBe base ds < base ^ ds.length := by
  have hlt := Nat.ofDigits_lt_base_pow_length hbase (l := ds.reverse) (by simpa using h)
  rwa [List.length_reverse] at hlt

/-- Without the zeros in front the digits are those of the number. -/
theorem dropWhile_zeros (hbase : 1 < base) (h : ∀ d ∈ ds, d < base) :
    ds.dropWhile (· == 0) = (Nat.digits base (ofBe base ds)).reverse := by
  induction ds with
  | nil => simp
  | cons d ds ih =>
    simp only [List.mem_cons, forall_eq_or_imp] at h
    by_cases hd : d = 0
    · have hval : ofBe base (d :: ds) = ofBe base ds := by
        simp only [ofBe, List.reverse_cons, hd, Nat.ofDigits_append_zero]
      rw [hval, ← ih h.2, hd, List.dropWhile_cons_of_pos (by simp)]
    · rw [List.dropWhile_cons_of_neg (by simpa using hd), ofBe, Nat.digits_ofDigits base hbase]
      · rw [List.reverse_reverse]
      · simp only [List.mem_reverse, List.mem_cons, forall_eq_or_imp]
        exact h
      · intro _
        simpa using hd

theorem ofBe_zeros_append (zs : List ℕ) (h : ∀ z ∈ zs, z = 0) :
    ofBe base (zs ++ ds) = ofBe base ds := by
  have hz : Nat.ofDigits base zs.reverse = 0 := ofBe_zeros h
  rw [ofBe, List.reverse_append, Nat.ofDigits_append, hz, mul_zero, add_zero, ofBe]

theorem takeWhile_zeros (ds : List ℕ) : ∀ d ∈ ds.takeWhile (· == 0), d = 0 := by
  intro d hd
  simpa using List.mem_takeWhile_imp hd

theorem ofBe_digits (base n : ℕ) : ofBe base (Nat.digits base n).reverse = n := by
  rw [ofBe, List.reverse_reverse, Nat.ofDigits_digits]

/-- The highest digit of a number is not zero. -/
theorem digits_head (base n : ℕ) : ∀ d ∈ (Nat.digits base n).reverse.head?, d ≠ 0 := by
  intro d hd
  rw [List.head?_reverse] at hd
  obtain ⟨hne, rfl⟩ := List.mem_getLast?_eq_getLast hd
  exact Nat.getLast_digit_ne_zero base (Nat.digits_ne_nil_iff_ne_zero.1 hne)

end Digits

section Rebase

/-- The same number in another radix, with the same zeros in front. -/
def rebase (base base' : ℕ) (ds : List ℕ) : List ℕ :=
  ds.takeWhile (· == 0) ++ (Nat.digits base' (ofBe base ds)).reverse

variable {base base' : ℕ} {ds : List ℕ}

theorem rebase_lt (hbase' : 1 < base') : ∀ d ∈ rebase base base' ds, d < base' := by
  intro d hd
  rcases List.mem_append.1 hd with hd | hd
  · rw [takeWhile_zeros ds d hd]
    omega
  · exact Nat.digits_lt_base hbase' (List.mem_reverse.1 hd)

/-- Nothing is lost on the way to another radix and back. -/
theorem rebase_rebase (hbase : 1 < base) (h : ∀ d ∈ ds, d < base) :
    rebase base' base (rebase base base' ds) = ds := by
  have hzeros := takeWhile_zeros ds
  have hval : ofBe base' (rebase base base' ds) = ofBe base ds := by
    rw [rebase, ofBe_zeros_append _ hzeros, ofBe_digits]
  have hfront : (rebase base base' ds).takeWhile (· == 0) = ds.takeWhile (· == 0) := by
    have hhead : (Nat.digits base' (ofBe base ds)).reverse.takeWhile (· == 0) = [] := by
      rcases hdigits : (Nat.digits base' (ofBe base ds)).reverse with _ | ⟨d, rest⟩
      · rfl
      · have hd : d ≠ 0 := digits_head base' (ofBe base ds) d (by simp [hdigits])
        exact List.takeWhile_cons_of_neg (by simpa using hd)
    rw [rebase, List.takeWhile_append_of_pos, hhead, List.append_nil]
    simpa using hzeros
  rw [rebase, hval, hfront, ← dropWhile_zeros hbase h, List.takeWhile_append_dropWhile]

end Rebase

/-- How many digits of one radix are enough for those of another. -/
theorem pow_le_pow_ratio {base base' p q : ℕ} (hbase' : 0 < base') (hq : 0 < q)
    (h : base ^ q ≤ base' ^ p) (n : ℕ) : base ^ n ≤ base' ^ (n * p / q + 1) := by
  have hexp : p * n ≤ (n * p / q + 1) * q := by
    rw [mul_comm p n]
    have hlt := Nat.lt_div_mul_add hq (a := n * p)
    rw [Nat.add_mul, one_mul]
    omega
  refine (Nat.pow_le_pow_iff_left (n := q) (by omega)).1 ?_
  calc (base ^ n) ^ q = (base ^ q) ^ n := by rw [← pow_mul, ← pow_mul, mul_comm]
    _ ≤ (base' ^ p) ^ n := Nat.pow_le_pow_left h n
    _ = base' ^ (p * n) := (pow_mul ..).symm
    _ ≤ base' ^ ((n * p / q + 1) * q) := Nat.pow_le_pow_right hbase' hexp
    _ = (base' ^ (n * p / q + 1)) ^ q := pow_mul ..

section Carry

/-- The walk from place `j` down, which multiplies and carries; the last place it wrote. Below
`high` every place is zero. -/
def carryLoop (mul base high : ℕ) : ℕ → ℕ → List ℕ → List ℕ × ℕ
  | 0, carry, buf => (buf.set 0 ((carry + mul * buf.getD 0 0) % base), 0)
  | j + 1, carry, buf =>
    let carry := carry + mul * buf.getD (j + 1) 0
    let buf := buf.set (j + 1) (carry % base)
    if j + 1 ≤ high ∧ carry / base = 0 then (buf, j + 1)
    else carryLoop mul base high j (carry / base) buf

/-- A further digit into the buffer and the highest place in use. -/
def radixStep (mul base : ℕ) (s : List ℕ × ℕ) (d : ℕ) : List ℕ × ℕ :=
  carryLoop mul base s.2 (s.1.length - 1) d s.1

/-- The buffer of zeros after all the digits. -/
def radixBuffer (mul base size : ℕ) (ds : List ℕ) : List ℕ × ℕ :=
  ds.foldl (radixStep mul base) (List.replicate size 0, size)

variable {mul base high size n : ℕ}

/-- The buffer holds the number, and every place below the highest one in use is zero. -/
structure RadixHolds (base size n : ℕ) (s : List ℕ × ℕ) : Prop where
  length : s.1.length = size
  digits : ∀ d ∈ s.1, d < base
  zeros : ∀ d ∈ s.1.take s.2, d = 0
  value : ofBe base s.1 = n

/-- What the walk does to the places it passes: those from `pre.length` down. -/
theorem carryLoop_spec (hbase : 0 < base) :
    ∀ (pre post : List ℕ) (d carry : ℕ), (∀ x ∈ pre.take high, x = 0) →
      carry + mul * ofBe base (pre ++ [d]) < base ^ (pre.length + 1) →
      ∃ pre' high', carryLoop mul base high pre.length carry (pre ++ d :: post)
          = (pre' ++ post, high')
        ∧ high' ≤ pre.length
        ∧ RadixHolds base (pre.length + 1) (carry + mul * ofBe base (pre ++ [d]))
          (pre', high') := by
  intro pre
  induction pre using List.reverseRecOn with
  | nil =>
    intro post d carry _ hlt
    simp only [List.nil_append, List.length_nil, zero_add, pow_one, ofBe_singleton] at hlt ⊢
    refine ⟨[(carry + mul * d) % base], 0, by simp [carryLoop], le_rfl, rfl, ?_, by simp, ?_⟩
    · simpa using Nat.mod_lt _ hbase
    · rw [ofBe_singleton, Nat.mod_eq_of_lt hlt]
  | append_singleton pre e ih =>
    intro post d carry hzeros hlt
    have hlen : (pre ++ [e]).length = pre.length + 1 := by simp
    rw [ofBe_snoc, hlen] at hlt
    have hmod : (carry + mul * d) % base < base := Nat.mod_lt _ hbase
    have hnum : carry + mul * (d + base * ofBe base (pre ++ [e]))
        = carry + mul * d + base * (mul * ofBe base (pre ++ [e])) := by ring
    have hget : (pre ++ [e] ++ d :: post).getD (pre.length + 1) 0 = d := by
      rw [List.getD_eq_getElem?_getD, List.getElem?_append_right hlen.le, hlen, Nat.sub_self]
      rfl
    have hset (x : ℕ) : (pre ++ [e] ++ d :: post).set (pre.length + 1) x
        = pre ++ e :: x :: post := by simp
    rw [hlen, carryLoop, hget, hset, ofBe_snoc, hnum]
    by_cases hstop : pre.length + 1 ≤ high ∧ (carry + mul * d) / base = 0
    · -- the places above are zero, and nothing is left to carry
      have hzero : ∀ x ∈ pre ++ [e], x = 0 := by
        rwa [List.take_of_length_le (by rw [hlen]; exact hstop.1)] at hzeros
      have hsmall : carry + mul * d < base := by
        rcases Nat.div_eq_zero_iff.1 hstop.2 with h | h
        · omega
        · exact h
      refine ⟨pre ++ [e] ++ [(carry + mul * d) % base], pre.length + 1, ?_, le_rfl, ?_, ?_, ?_, ?_⟩
      · rw [if_pos hstop]
        simp
      · simp
      · intro x hx
        rcases List.mem_append.1 hx with hx | hx
        · rw [hzero x hx]
          exact hbase
        · rw [List.mem_singleton.1 hx]
          exact hmod
      · intro x hx
        rw [List.take_append_of_le_length (by simp)] at hx
        exact hzero x (List.mem_of_mem_take hx)
      · rw [ofBe_snoc, ofBe_zeros hzero, Nat.mod_eq_of_lt hsmall]
        simp
    · rw [hnum, pow_succ'] at hlt
      have hlt' : (carry + mul * d) / base + mul * ofBe base (pre ++ [e])
          < base ^ (pre.length + 1) := by
        rw [← Nat.add_mul_div_left _ _ hbase]
        exact Nat.div_lt_of_lt_mul hlt
      have hzeros' : ∀ x ∈ pre.take high, x = 0 := fun x hx =>
        hzeros x (by rw [List.take_append]; exact List.mem_append_left _ hx)
      obtain ⟨pre', high', hrun, hle, hholds⟩ :=
        ih ((carry + mul * d) % base :: post) e _ hzeros' hlt'
      have hlen' := hholds.length
      simp only [] at hlen'
      refine ⟨pre' ++ [(carry + mul * d) % base], high', ?_, by omega, ?_, ?_, ?_, ?_⟩
      · rw [if_neg hstop, hrun, List.append_assoc, List.singleton_append]
      · simp [hlen']
      · intro x hx
        rcases List.mem_append.1 hx with hx | hx
        · exact hholds.digits x hx
        · rw [List.mem_singleton.1 hx]
          exact hmod
      · intro x hx
        rw [List.take_append_of_le_length (by omega)] at hx
        exact hholds.zeros x hx
      · rw [ofBe_snoc, hholds.value]
        have hdiv := Nat.mod_add_div (carry + mul * d) base
        calc (carry + mul * d) % base
              + base * ((carry + mul * d) / base + mul * ofBe base (pre ++ [e]))
            = (carry + mul * d) % base + base * ((carry + mul * d) / base)
              + base * (mul * ofBe base (pre ++ [e])) := by ring
          _ = _ := by rw [hdiv]

/-- A further digit: the number is multiplied and the digit added. -/
theorem radixStep_holds (hbase : 0 < base) {s : List ℕ × ℕ} (hs : RadixHolds base size n s)
    {d : ℕ} (hfits : d + mul * n < base ^ size) (hsize : 0 < size) :
    RadixHolds base size (d + mul * n) (radixStep mul base s d) := by
  obtain ⟨buf, high⟩ := s
  obtain ⟨hlength, -, hzeros, rfl⟩ := hs
  simp only [] at hlength hzeros hfits ⊢
  rcases List.eq_nil_or_concat' buf with rfl | ⟨pre, e, rfl⟩
  · simp at hlength
    omega
  have hlen : pre.length + 1 = size := by simpa using hlength
  subst hlen
  have hzeros' : ∀ x ∈ pre.take high, x = 0 := fun x hx =>
    hzeros x (by rw [List.take_append]; exact List.mem_append_left _ hx)
  obtain ⟨pre', high', hrun, -, hholds⟩ := carryLoop_spec hbase pre [] e d hzeros' hfits
  have hstep : radixStep mul base (pre ++ [e], high) d = (pre', high') := by
    simp only [radixStep, hlength, Nat.add_sub_cancel, hrun, List.append_nil]
  rwa [hstep]

/-- The buffer of zeros after digits whose number fits. -/
theorem radixBuffer_holds (hbase : 0 < base) (hmul : 0 < mul) (hsize : 0 < size) (ds : List ℕ)
    (hfits : ofBe mul ds < base ^ size) :
    RadixHolds base size (ofBe mul ds) (radixBuffer mul base size ds) := by
  induction ds using List.reverseRecOn with
  | nil =>
    have hzero (d : ℕ) (h : d ∈ List.replicate size 0) : d = 0 := List.eq_of_mem_replicate h
    exact ⟨by simp [radixBuffer], fun d hd => by rw [hzero d hd]; exact hbase,
      fun d hd => hzero d (List.mem_of_mem_take hd), ofBe_zeros hzero⟩
  | append_singleton ds d ih =>
    rw [ofBe_snoc] at hfits ⊢
    have hle : ofBe mul ds ≤ mul * ofBe mul ds := Nat.le_mul_of_pos_left _ hmul
    rw [radixBuffer, List.foldl_append]
    exact radixStep_holds hbase (ih (by omega)) hfits hsize

/-- A buffer that is wide enough ends in the digits of the number. -/
theorem radixBuffer_digits (hbase : 1 < base) (hmul : 0 < mul) (hsize : 0 < size) (ds : List ℕ)
    (hfits : ofBe mul ds < base ^ size) :
    (radixBuffer mul base size ds).1.dropWhile (· == 0)
      = (Nat.digits base (ofBe mul ds)).reverse := by
  have h := radixBuffer_holds (by omega) hmul hsize ds hfits
  rw [dropWhile_zeros hbase h.digits, h.value]

end Carry

end BonsaiChain.Lib
