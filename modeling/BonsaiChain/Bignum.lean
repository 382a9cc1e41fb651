import BonsaiChain.Common

/-!
# Integers as text

The decimal and hex printers and parsers of `crypto/bignum.c`, with what they take from the library
behind them: a parser accepts exactly the strings it reads to the end.
-/

namespace BonsaiChain

section Dec

def bnToDec (n : ℕ) : CString := decimal n

/-- The digits of a decimal string, behind the value of those before. -/
def decDigits : ℕ → CString → Option ℕ
  | n, [] => some n
  | n, c :: cs => if 48 ≤ c ∧ c ≤ 57 then decDigits (10 * n + (c.toNat - 48)) cs else none

def bnParseDec : CString → Except Err ℤ
  | [] => .error .eparse
  | 45 :: [] => .error .eparse
  | 45 :: cs => ((decDigits 0 cs).map fun n => -(n : ℤ)).elim (.error .eparse) .ok
  | cs => ((decDigits 0 cs).map fun n => (n : ℤ)).elim (.error .eparse) .ok

end Dec

section Hex

/-- `bn_to_hex`: lower case without leading zeros. -/
def bnToHex (n : ℕ) : CString := (Nat.toDigits 16 n).map fun c => UInt8.ofNat c.toNat

/-- The digits of a hex string, behind the value of those before. -/
def hexDigits : ℕ → CString → Option ℕ
  | n, [] => some n
  | n, c :: cs =>
    match hexNibble c with
    | none => none
    | some d => hexDigits (16 * n + d.toNat) cs

/-- `BN_hex2bn` on a whole string: the sign and the digits, one at least and `INT_MAX / 4` at
most. -/
def bnHex2bn : CString → Option ℤ
  | 45 :: ds =>
    if ds = [] ∨ 536870911 < ds.length then none else (hexDigits 0 ds).map fun n => -(n : ℤ)
  | ds => if ds = [] ∨ 536870911 < ds.length then none else (hexDigits 0 ds).map fun n => (n : ℤ)

/-- An optional sign: whether it is a minus, and the rest. -/
def hexSign : CString → Bool × CString
  | 45 :: p => (true, p)
  | 43 :: p => (false, p)
  | p => (false, p)

/-- An optional `0x`. -/
def hexPrefix : CString → CString
  | 48 :: 120 :: p => p
  | 48 :: 88 :: p => p
  | p => p

def bnParseHex (hex : CString) : Except Err ℤ :=
  let (negative, p) := hexSign hex
  match bnHex2bn (hexPrefix p) with
  | none => .error .eparse
  | some z => .ok (if negative then -|z| else z)

end Hex

end BonsaiChain
