import BonsaiChain.Base58
import BonsaiChain.Ecdsa
import Mathlib.Data.Nat.Digits.Defs

/-!
# Addresses and keys in import format

`bsv/address.c` and `ecdsa_key_from_wif`: a public key hash behind the version byte of its network,
and a secret behind the one of its own, each with a checksum in base 58.
-/

namespace BonsaiChain

open Lib

section Encode

/-- A zero byte in front becomes a one; the rest is the number in base 58, its highest digit
first. -/
def base58Encode (data : Bytes) : CString :=
  List.replicate (data.takeWhile (· == 0)).length 49
    ++ (Nat.digits 58 (leNat data.reverse)).reverse.map fun d => b58Alphabet.getD d 49

def base58checkEncode (P : Prims) (data : Bytes) : CString :=
  base58Encode (data ++ (sha256d P data).1.take 4)

def addressFromHash160 (P : Prims) (hash160 : Block 20) (net : BsvNetwork) : CString :=
  base58checkEncode P (net.p2pkhVersion :: hash160.1)

def addressFromPubkey (P : Prims) (pub : Block 33) (net : BsvNetwork) : CString :=
  addressFromHash160 P (P.hash160 pub.1) net

end Encode

section Wif

/-- What `wif_decode` hands out. -/
structure WifKey where
  secret : Block 32
  compressed : Bool
  net : BsvNetwork

/-- The network of a version byte. -/
def wifNetwork (version : UInt8) : Except Err BsvNetwork :=
  if version = 0x80 then .ok .mainnet
  else if version = 0xef then .ok .testnet
  else .error .eparse

/-- A compressed key has a byte 1 behind its secret. -/
def wifDecode (P : Prims) (wif : CString) : Except Err WifKey := do
  let payload ← base58checkDecode P wif
  let compressed := payload.length = 34 ∧ payload[33]? = some 1
  if h : ((payload.drop 1).take 32).length = 32 ∧ (payload.length = 33 ∨ compressed) then
    let net ← wifNetwork (payload.headD 0)
    return ⟨⟨(payload.drop 1).take 32, h.1⟩, compressed, net⟩
  else .error .eparse

/-- The key and whether it was compressed. Every failure is one of parsing. -/
def ecdsaKeyFromWif (P : Prims) (S : Secp256k1) (wif : CString) : Except Err (EcdsaKey × Bool) :=
  match wifDecode P wif with
  | .error _ => .error .eparse
  | .ok w =>
    match ecdsaKeyFromBytes S w.secret with
    | .error _ => .error .eparse
    | .ok key => .ok (key, w.compressed)

end Wif

end BonsaiChain
