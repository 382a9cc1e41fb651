import BonsaiChain.Hash
import BonsaiChain.Lib.BlumRoot
import BonsaiChain.Proofs.Common
import BonsaiChain.Proofs.Num2bin
import BonsaiChain.Rabin
import Mathlib.Tactic.NormNum.Prime

/-!
# Rabin signatures are right

The signing loop ends with the least number of zero bytes behind which the hash has a root modulo
both primes, and the number it returns is such a root, so the signature verifies.
-/

namespace BonsaiChain

open Lib

section Bignum

theorem divSmallDigits_length : ∀ {d rem : UInt32} {bs : Bytes},
    (divSmallDigits d rem bs).length = bs.length
  | d, rem, [] => rfl
  | d, rem, b :: bs => by
    simp only [divSmallDigits, List.length_cons, divSmallDigits_length]

/-- One more byte behind a small remainder. -/
theorem shiftIn_toNat {rem : UInt32} {b : UInt8} (h : rem.toNat < 2 ^ 24) :
    (rem <<< 8 ||| b.toUInt32).toNat = rem.toNat * 256 + b.toNat := by
  have hb := b.toNat_lt
  rw [UInt32.toNat_or, UInt32.toNat_shiftLeft, UInt8.toNat_toUInt32]
  have hshift : rem.toNat <<< (UInt32.toNat 8 % 32) % 2 ^ 32 = rem.toNat <<< 8 := by
    rw [Nat.mod_eq_of_lt]
    · rfl
    · rw [Nat.shiftLeft_eq]
      show rem.toNat * 2 ^ 8 < 2 ^ 32
      omega
  rw [hshift, ← Nat.shiftLeft_add_eq_or_of_lt (by omega), Nat.shiftLeft_eq]

/-- The digits of the long division spell the quotient. -/
theorem leNat_divSmallDigits {d : UInt32} (hd : d.toNat ≤ 2 ^ 24) : ∀ {rem : UInt32} {bs : Bytes},
    rem.toNat < d.toNat → leNat (divSmallDigits d rem bs).reverse
      = (rem.toNat * 256 ^ bs.length + leNat bs.reverse) / d.toNat
  | rem, [], h => by
    simp only [divSmallDigits, List.reverse_nil, List.length_nil, pow_zero, mul_one, leNat,
      add_zero]
    exact (Nat.div_eq_of_lt h).symm
  | rem, b :: bs, h => by
    have hb := b.toNat_lt
    have hcur := shiftIn_toNat (b := b) (h.trans_le hd)
    set cur := rem <<< 8 ||| b.toUInt32 with hdef
    have hquot : (cur / d).toUInt8.toNat = cur.toNat / d.toNat := by
      rw [UInt32.toNat_toUInt8, UInt32.toNat_div]
      refine Nat.mod_eq_of_lt (Nat.div_lt_of_lt_mul ?_)
      rw [hcur]
      omega
    have hrem : (cur % d).toNat < d.toNat := by
      rw [UInt32.toNat_mod]
      exact Nat.mod_lt _ (by omega)
    simp only [divSmallDigits, List.reverse_cons, List.length_cons]
    rw [← hdef, leNat_append, leNat_divSmallDigits hd hrem, List.length_reverse,
      divSmallDigits_length, leNat_append, List.length_reverse]
    simp only [leNat, mul_zero, add_zero, hquot, UInt32.toNat_mod]
    have hsplit : rem.toNat * 256 ^ (bs.length + 1) + (leNat bs.reverse + 256 ^ bs.length * b.toNat)
        = cur.toNat % d.toNat * 256 ^ bs.length + leNat bs.reverse
          + d.toNat * (256 ^ bs.length * (cur.toNat / d.toNat)) := by
      have hdiv := Nat.div_add_mod cur.toNat d.toNat
      calc rem.toNat * 256 ^ (bs.length + 1) + (leNat bs.reverse + 256 ^ bs.length * b.toNat)
          = cur.toNat * 256 ^ bs.length + leNat bs.reverse := by
            rw [hcur]
            ring
        _ = (d.toNat * (cur.toNat / d.toNat) + cur.toNat % d.toNat) * 256 ^ bs.length
              + leNat bs.reverse := by rw [hdiv]
        _ = _ := by ring
    rw [hsplit, Nat.add_mul_div_left _ _ (by omega)]

/-- The division of a whole number, leading zero bytes included. -/
theorem leNat_divSmallDigits_zero {d : UInt32} (hd : 0 < d.toNat) (hd' : d.toNat ≤ 2 ^ 24)
    (bs : Bytes) :
    leNat (divSmallDigits d 0 bs).reverse = leNat bs.reverse / d.toNat := by
  have hzero : (0 : UInt32).toNat < d.toNat := hd
  have h : leNat (divSmallDigits d 0 bs).reverse = _ := leNat_divSmallDigits hd' hzero
  simpa using h

theorem bnDivSmall_eq {d : UInt32} (hd : 0 < d.toNat) (hd' : d.toNat ≤ 2 ^ 24) (a : ℕ) :
    bnDivSmall a d = a / d.toNat := by
  unfold bnDivSmall
  rw [leNat_divSmallDigits_zero hd hd', List.reverse_reverse, leNat_bnMagnitudeLe]

theorem bnDivSmall_four (a : ℕ) : bnDivSmall a 4 = a / 4 := bnDivSmall_eq (by decide) (by decide) a

/-- What is divided at each byte, on numbers without a width. -/
def dividends (d : ℕ) : ℕ → Bytes → List ℕ
  | _, [] => []
  | rem, b :: bs =>
    let cur := rem * 256 + b.toNat
    cur :: dividends d (cur % d) bs

/-- The words of the long division hold these numbers, and the bytes hold the digits. -/
theorem divSmallDigits_dividends {d : UInt32} (hd : d.toNat ≤ 2 ^ 24) :
    ∀ (rem : UInt32) (bs : Bytes), rem.toNat < d.toNat →
      (divSmallDigits d rem bs).map UInt8.toNat = (dividends d.toNat rem.toNat bs).map (· / d.toNat)
        ∧ ∀ cur ∈ dividends d.toNat rem.toNat bs, cur < 2 ^ 32 ∧ cur / d.toNat < 256
  | rem, [], _ => ⟨rfl, by simp [dividends]⟩
  | rem, b :: bs, h => by
    have hb := b.toNat_lt
    have hcur := shiftIn_toNat (b := b) (h.trans_le hd)
    have hrem : ((rem <<< 8 ||| b.toUInt32) % d).toNat = (rem.toNat * 256 + b.toNat) % d.toNat := by
      rw [UInt32.toNat_mod, hcur]
    have hdigit : (rem.toNat * 256 + b.toNat) / d.toNat < 256 := by
      refine Nat.div_lt_of_lt_mul ?_
      omega
    have hbyte : ((rem <<< 8 ||| b.toUInt32) / d).toUInt8.toNat
        = (rem.toNat * 256 + b.toNat) / d.toNat := by
      rw [UInt32.toNat_toUInt8, UInt32.toNat_div, hcur]
      exact Nat.mod_eq_of_lt hdigit
    have hlt : ((rem <<< 8 ||| b.toUInt32) % d).toNat < d.toNat := by
      rw [UInt32.toNat_mod]
      exact Nat.mod_lt _ (by omega)
    obtain ⟨hdigits, hfits⟩ := divSmallDigits_dividends hd _ bs hlt
    rw [hrem] at hdigits hfits
    unfold divSmallDigits dividends
    refine ⟨?_, ?_⟩
    · rw [List.map_cons, List.map_cons, hbyte, hdigits]
    · rw [List.forall_mem_cons]
      exact ⟨⟨by omega, hdigit⟩, hfits⟩

theorem bnModExpSecret_odd {base exp m : ℕ} (h : m % 2 = 1) :
    bnModExpSecret base exp m = .ok (base ^ exp % m) := by
  unfold bnModExpSecret
  rw [if_neg (by omega), if_neg (by omega)]

end Bignum

section Division

/-- `rabin_crt_root` with the exponents of the roots given. -/
def crtRootAt (expP expQ x p q n : ℕ) : Except Err ℕ := do
  let invQP ← bnModExpSecret q (p - 2) p
  let invPQ ← bnModExpSecret p (q - 2) q
  let xsp ← bnModExpSecret x expP p
  let xsq ← bnModExpSecret x expQ q
  bnMod (invQP * q * xsp + invPQ * p * xsq) n

/-- The long division divides, with digits that fit in a byte and no number beyond 32 bits, and so
the exponents of the roots are exact. -/
theorem bnDivSmall_exact :
    (∀ d : UInt32, 0 < d.toNat → d.toNat < 2 ^ 24 →
      (∀ a : ℕ, bnDivSmall a d = a / d.toNat)
      ∧ ∀ bs : Bytes, leNat (divSmallDigits d 0 bs).reverse = leNat bs.reverse / d.toNat
        ∧ (divSmallDigits d 0 bs).map UInt8.toNat = (dividends d.toNat 0 bs).map (· / d.toNat)
        ∧ ∀ cur ∈ dividends d.toNat 0 bs, cur < 2 ^ 32 ∧ cur / d.toNat < 256)
    ∧ (∀ p : ℕ, p.Prime → p % 4 = 3 → 4 * bnDivSmall (p + 1) 4 = p + 1)
    ∧ ∀ x p q n : ℕ, rabinCrtRoot x p q n = crtRootAt ((p + 1) / 4) ((q + 1) / 4) x p q n := by
  refine ⟨fun d hd hlt => ⟨bnDivSmall_eq hd hlt.le, fun bs => ?_⟩, fun p _ hp => ?_,
    fun x p q n => ?_⟩
  · exact ⟨leNat_divSmallDigits_zero hd hlt.le bs,
      divSmallDigits_dividends hlt.le 0 bs hd⟩
  · rw [bnDivSmall_four]
    omega
  · rw [rabinCrtRoot, bnDivSmall_four, bnDivSmall_four, crtRootAt]

/-- The widest divisor, a leading zero byte, and a prime. -/
theorem bnDivSmall_exact_widest :
    bnDivSmall (2 ^ 64) 0xffffff = 2 ^ 64 / 0xffffff
    ∧ leNat (divSmallDigits 0xffffff 0 [0, 255, 255, 255, 255]).reverse = 0xffffffff / 0xffffff
    ∧ 4 * bnDivSmall (7 + 1) 4 = 7 + 1 := by
  obtain ⟨hdiv, hprime, -⟩ := bnDivSmall_exact
  obtain ⟨ha, hbs⟩ := hdiv 0xffffff (by decide) (by decide)
  exact ⟨ha _, (hbs [0, 255, 255, 255, 255]).1, hprime 7 (by decide) rfl⟩

end Division

/-- Two different primes that are 3 modulo 4. -/
structure RabinKey.IsBlum (key : RabinKey) : Prop where
  primeP : key.p.Prime
  primeQ : key.q.Prime
  modP : key.p % 4 = 3
  modQ : key.q % 4 = 3
  ne : key.p ≠ key.q

/-- The hash of the message and `k` zero bytes is zero or a quadratic residue modulo both primes. -/
def HasRootAt (sha256 : Bytes → Block 32) (key : RabinKey) (msg : Bytes) (k : ℕ) : Prop :=
  IsSquare (rabinHash sha256 (msg ++ List.replicate k 0) : ZMod key.p) ∧
    IsSquare (rabinHash sha256 (msg ++ List.replicate k 0) : ZMod key.q)

section Sign

variable {sha256 : Bytes → Block 32} {key : RabinKey} {msg data data' : Bytes} {sig : RabinSig}
  {i j : ℕ}

theorem RabinKey.IsBlum.pubkey_pos (hkey : key.IsBlum) : 0 < key.pubkey :=
  Nat.mul_pos hkey.primeP.pos hkey.primeQ.pos

theorem rabinCrtRoot_eq (hkey : key.IsBlum) (x : ℕ) :
    rabinCrtRoot x key.p key.q key.pubkey = .ok (crtRoot key.p key.q x) := by
  have hp := hkey.modP
  have hq := hkey.modQ
  have hn := hkey.pubkey_pos
  simp only [rabinCrtRoot, bnDivSmall_four, bnModExpSecret_odd (show key.p % 2 = 1 by omega),
    bnModExpSecret_odd (show key.q % 2 = 1 by omega), bind, Except.bind, bnMod, hn.ne', if_false]
  rfl

/-- An attempt gives the root that was computed exactly when there is one. -/
theorem rabinTryRoot_eq_ok (hkey : key.IsBlum) {r : Option ℕ}
    (h : rabinTryRoot sha256 key data = .ok r) :
    (∃ s, r = some s ∧ s < key.pubkey ∧ s ^ 2 ≡ rabinHash sha256 data [MOD key.pubkey]
        ∧ HasRootAt sha256 key data 0)
      ∨ r = none ∧ ¬HasRootAt sha256 key data 0 := by
  have hn := hkey.pubkey_pos
  set x := rabinHash sha256 data with hx
  set s := crtRoot key.p key.q (x % key.pubkey) with hs
  have hroot : s ^ 2 ≡ x [MOD key.pubkey] ↔ HasRootAt sha256 key data 0 := by
    have hmod : IsSquare ((x % key.pubkey : ℕ) : ZMod key.p) ∧
        IsSquare ((x % key.pubkey : ℕ) : ZMod key.q) ↔ HasRootAt sha256 key data 0 := by
      have hcastP : ((x % key.pubkey : ℕ) : ZMod key.p) = x :=
        (ZMod.natCast_eq_natCast_iff _ _ _).mpr ((Nat.mod_modEq _ _).of_mul_right _)
      have hcastQ : ((x % key.pubkey : ℕ) : ZMod key.q) = x :=
        (ZMod.natCast_eq_natCast_iff _ _ _).mpr ((Nat.mod_modEq _ _).of_mul_left _)
      rw [hcastP, hcastQ, HasRootAt, List.replicate_zero, List.append_nil, ← hx]
    rw [← hmod, ← crtRoot_sq hkey.primeP hkey.primeQ hkey.ne hkey.modP hkey.modQ]
    exact ⟨fun h => h.trans (Nat.mod_modEq _ _).symm, fun h => h.trans (Nat.mod_modEq _ _)⟩
  have htest : s * s % key.pubkey = x % key.pubkey ↔ s ^ 2 ≡ x [MOD key.pubkey] := by
    rw [pow_two]
    rfl
  have hlt : s < key.pubkey := Nat.mod_lt _ hn
  simp only [rabinTryRoot, bnMod, bnModSqr, hn.ne', if_false, rabinCrtRoot_eq hkey, ← hx, bind,
    Except.bind, pure, Except.pure, ← hs, Except.ok.injEq] at h
  subst h
  by_cases hsq : s ^ 2 ≡ x [MOD key.pubkey]
  · exact .inl ⟨s, if_pos (htest.mpr hsq), hlt, hsq, hroot.mp hsq⟩
  · exact .inr ⟨if_neg (htest.not.mpr hsq), hroot.not.mp hsq⟩

theorem hasRootAt_append : HasRootAt sha256 key (msg ++ List.replicate i 0) 0
    ↔ HasRootAt sha256 key msg i := by
  simp [HasRootAt]

/-- A lap that goes on found no root and appends one zero byte. -/
theorem rabinSignLap_next (hkey : key.IsBlum) (h : rabinSignLap sha256 key i data = .inr data') :
    data' = data ++ [0] ∧ ¬HasRootAt sha256 key data 0 := by
  unfold rabinSignLap at h
  rcases htry : rabinTryRoot sha256 key data with e | r
  · simp [htry] at h
  rw [htry] at h
  rcases rabinTryRoot_eq_ok hkey htry with ⟨s, rfl, -⟩ | ⟨rfl, hnone⟩
  · simp at h
  · rcases happend : byteBufAppend data [0] with e | bs
    · simp [happend] at h
    · simp only [happend, Sum.inr.injEq] at h
      rw [← h]
      exact ⟨byteBufAppend_eq_ok happend, hnone⟩

theorem rabinSignLap_end (hkey : key.IsBlum)
    (h : rabinSignLap sha256 key i data = .inl (.ok sig)) :
    sig.paddingByteCount = i ∧ sig.s < key.pubkey
      ∧ sig.s ^ 2 ≡ rabinHash sha256 data [MOD key.pubkey] ∧ HasRootAt sha256 key data 0 := by
  unfold rabinSignLap at h
  rcases htry : rabinTryRoot sha256 key data with e | r
  · simp [htry] at h
  rw [htry] at h
  rcases rabinTryRoot_eq_ok hkey htry with ⟨s, rfl, hlt, hsq, hroot⟩ | ⟨rfl, -⟩
  · obtain rfl : ⟨s, i⟩ = sig := by simpa using h
    exact ⟨rfl, hlt, hsq, hroot⟩
  · rcases happend : byteBufAppend data [0] with e | bs <;> simp [happend] at h

/-- Lap `j` signs the message with `j` zero bytes, and no lap before it found a root. -/
theorem reaches_rabinSignLap (hkey : key.IsBlum)
    (h : Reaches (rabinSignLap sha256 key) i data j data')
    (hdata : data = msg ++ List.replicate i 0) :
    data' = msg ++ List.replicate j 0 ∧ ∀ m, i ≤ m → m < j → ¬HasRootAt sha256 key msg m := by
  induction h with
  | refl => exact ⟨hdata, fun m hm hlt => absurd hlt (not_lt.mpr hm)⟩
  | @head i j data mid _ hstep _ ih =>
    obtain ⟨rfl, hnone⟩ := rabinSignLap_next hkey hstep
    subst hdata
    obtain ⟨hend, hbefore⟩ := ih (by rw [List.replicate_succ', List.append_assoc])
    refine ⟨hend, fun m hm hlt => ?_⟩
    rcases hm.eq_or_lt with rfl | hgt
    · exact hasRootAt_append.not.mp hnone
    · exact hbefore m hgt hlt

/-- A root of the padded hash verifies. -/
theorem rabinVerify_of_root {s k n : ℕ} (hn : 0 < n)
    (h : s ^ 2 ≡ rabinHash sha256 (msg ++ List.replicate k 0) [MOD n])
    (hk : k ≤ rabinMaxPaddingBytes) : rabinVerify sha256 msg s k n = true := by
  have hcast : (rabinHash sha256 (msg ++ List.replicate k 0) : ℤ) % (n : ℤ) = (s : ℤ) * s % n := by
    rw [← Int.natCast_mod, ← h, pow_two]
    push_cast
    rfl
  unfold rabinVerify
  rw [if_neg (not_lt.mpr hk), if_neg (by omega), hcast]
  exact beq_self_eq_true _

/-- What `rabin_sign` returns is a root of the hash behind the least padding for which there is one,
and it verifies unless the padding is too long. -/
theorem rabinSign_least {laps : ℕ} (hkey : key.IsBlum)
    (h : rabinSign sha256 laps msg key = some (.ok sig)) :
    sig.s < key.p * key.q
      ∧ sig.s ^ 2 ≡ rabinHash sha256 (msg ++ List.replicate sig.paddingByteCount 0)
        [MOD key.p * key.q]
      ∧ IsLeast {k | HasRootAt sha256 key msg k} sig.paddingByteCount
      ∧ (sig.paddingByteCount ≤ rabinMaxPaddingBytes →
        rabinVerify sha256 msg sig.s sig.paddingByteCount (key.p * key.q : ℕ) = true) := by
  rw [rabinSign, Sum.getLeft?_eq_some_iff, loop_eq_inl] at h
  obtain ⟨j, data, -, hreach, hend⟩ := h
  obtain ⟨rfl, hbefore⟩ : data = msg ++ List.replicate j 0 ∧
      ∀ m, 0 ≤ m → m < j → ¬HasRootAt sha256 key msg m :=
    reaches_rabinSignLap hkey hreach (by simp)
  obtain ⟨rfl, hlt, hsq, hroot⟩ := rabinSignLap_end hkey hend
  refine ⟨hlt, hsq, ⟨hasRootAt_append.mp hroot, fun m hm => ?_⟩, fun hpad => ?_⟩
  · by_contra hlt'
    exact hbefore m (Nat.zero_le m) (not_le.mp hlt') hm
  · exact rabinVerify_of_root hkey.pubkey_pos hsq hpad

end Sign

section Example

/-- The key of the examples. -/
def exampleRabinKey : RabinKey := ⟨1019, 1039⟩

theorem exampleRabinKey_isBlum : exampleRabinKey.IsBlum :=
  ⟨by norm_num [exampleRabinKey], by norm_num [exampleRabinKey], rfl, rfl, by decide⟩

/-- The hash of a message of three bytes has no root, and it has one behind a zero byte. -/
theorem rabinSign_least_padded :
    316152 ^ 2 ≡ rabinHash sha256 ([1, 2, 2] ++ List.replicate 1 0) [MOD 1019 * 1039]
      ∧ IsLeast {k | HasRootAt sha256 exampleRabinKey [1, 2, 2] k} 1
      ∧ rabinVerify sha256 [1, 2, 2] 316152 1 (1019 * 1039) = true := by
  have hsign : rabinSign sha256 20 [1, 2, 2] exampleRabinKey = some (.ok ⟨316152, 1⟩) := by
    decide +kernel
  obtain ⟨-, hsq, hleast, hverify⟩ := rabinSign_least exampleRabinKey_isBlum hsign
  exact ⟨hsq, hleast, hverify (by decide)⟩

end Example

end BonsaiChain
