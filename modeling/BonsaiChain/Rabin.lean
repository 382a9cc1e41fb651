import BonsaiChain.Bignum
import BonsaiChain.Lib.Loop
import BonsaiChain.Num2bin

/-!
# Rabin signatures

`crypto/rabin.c` and the adapter `lib/rabin_verifier.c`. The signing loop appends a zero byte to the
message until its hash has a square root; it need not end, so it is run for a number of laps.
-/

namespace BonsaiChain

open Lib

section Bignum

/-- One byte of the long division, from the most significant one down. -/
def divSmallDigits (d : UInt32) : UInt32 → Bytes → Bytes
  | _, [] => []
  | rem, b :: bs =>
    let cur := rem <<< 8 ||| b.toUInt32
    (cur / d).toUInt8 :: divSmallDigits d (cur % d) bs

/-- `bn_div_small`. -/
def bnDivSmall (a : ℕ) (d : UInt32) : ℕ :=
  leNat (divSmallDigits d 0 (bnMagnitudeLe a).reverse).reverse

def bnMod (a m : ℕ) : Except Err ℕ := if m = 0 then .error .einval else .ok (a % m)

def bnModSqr (a m : ℕ) : Except Err ℕ := if m = 0 then .error .einval else .ok (a * a % m)

/-- `bn_mod_exp_secret`: OpenSSL refuses an even modulus with an exponent it must not leak. -/
def bnModExpSecret (base exp m : ℕ) : Except Err ℕ :=
  if m = 0 then .error .einval
  else if m % 2 = 0 then .error .enomem
  else .ok (base ^ exp % m)

end Bignum

section Hash

variable (sha256 : Bytes → Block 32)

def rabinBin2hash (data : Bytes) : Bytes :=
  let h := (sha256 data).1
  (sha256 (h.take 16)).1 ++ (sha256 (h.drop 16)).1

/-- `rabin_hash`: six doubled hashes, each of all the bytes before it. -/
def rabinHash (data : Bytes) : ℕ :=
  leNat ((fun r => r ++ rabinBin2hash sha256 r)^[5] (rabinBin2hash sha256 data))

end Hash

/-- `rabin_key_t`: the two prime factors. -/
structure RabinKey where
  p : ℕ
  q : ℕ
  deriving DecidableEq

/-- `rabin_sig_t`. -/
structure RabinSig where
  s : ℕ
  paddingByteCount : ℕ
  deriving DecidableEq, Repr

def RabinKey.pubkey (key : RabinKey) : ℕ := key.p * key.q

section Sign

/-- `rabin_crt_root`. For the modulus 1 the exponent `-1` gives 0, as every other one does. -/
def rabinCrtRoot (x p q n : ℕ) : Except Err ℕ := do
  let expP := bnDivSmall (p + 1) 4
  let expQ := bnDivSmall (q + 1) 4
  let invQP ← bnModExpSecret q (p - 2) p
  let invPQ ← bnModExpSecret p (q - 2) q
  let xsp ← bnModExpSecret x expP p
  let xsq ← bnModExpSecret x expQ q
  bnMod (invQP * q * xsp + invPQ * p * xsq) n

/-- A root of the hash of the data, if the number computed is one. -/
def rabinTryRoot (sha256 : Bytes → Block 32) (key : RabinKey) (data : Bytes) :
    Except Err (Option ℕ) := do
  let x ← bnMod (rabinHash sha256 data) key.pubkey
  let s ← rabinCrtRoot x key.p key.q key.pubkey
  let s2 ← bnModSqr s key.pubkey
  return if s2 = x then some s else none

/-- The codes `rabin_sign` passes on; every other failure is `BNS_ECRYPTO`. -/
def rabinSignErr (e : Err) : Err := if e = .enomem ∨ e = .einval then e else .ecrypto

/-- A lap of the signing loop, which counts the bytes appended so far. -/
def rabinSignLap (sha256 : Bytes → Block 32) (key : RabinKey) (padding : ℕ) (data : Bytes) :
    Except Err RabinSig ⊕ Bytes :=
  match rabinTryRoot sha256 key data with
  | .error e => .inl (.error (rabinSignErr e))
  | .ok (some s) => .inl (.ok ⟨s, padding⟩)
  | .ok none =>
    match byteBufAppend data [0] with
    | .error e => .inl (.error (rabinSignErr e))
    | .ok data => .inr data

/-- `rabin_sign`; `none` when the loop has not ended after so many laps. -/
def rabinSign (sha256 : Bytes → Block 32) (laps : ℕ) (msg : Bytes) (key : RabinKey) :
    Option (Except Err RabinSig) :=
  (loop (rabinSignLap sha256 key) laps 0 msg).getLeft?

end Sign

section Verify

variable (sha256 : Bytes → Block 32)

def rabinMaxPaddingBytes : ℕ := 4096

/-- `rabin_verify`. -/
def rabinVerify (msg : Bytes) (s : ℤ) (paddingByteCount : ℕ) (n : ℤ) : Bool :=
  if rabinMaxPaddingBytes < paddingByteCount then false
  else if n = 0 then false
  else (rabinHash sha256 (msg ++ List.replicate paddingByteCount 0) : ℤ) % n == s * s % n

/-- `rabin_verifier_sig_t`. -/
structure RabinVerifierSig where
  s : ℤ
  padding : Bytes
  deriving DecidableEq

/-- A signature as the contract takes it, with the zero bytes it was padded with. -/
def RabinSig.onChain (sig : RabinSig) : RabinVerifierSig :=
  ⟨sig.s, List.replicate sig.paddingByteCount 0⟩

/-- `rabin_verifier_verify_sig`: padding other than zero bytes is refused. -/
def rabinVerifierVerifySig (msg : Bytes) (sig : RabinVerifierSig) (n : ℤ) : Bool :=
  if rabinMaxPaddingBytes < sig.padding.length then false
  else if sig.padding.any (· ≠ 0) then false
  else rabinVerify sha256 msg sig.s sig.padding.length n

end Verify

end BonsaiChain
