import BonsaiChain.Rabin

/-!
# Attestations

The sequenced message an attestor signs, built from a hex digest by `verifier/rabin_attestor.c` and
from a digest by `contracts_next/arp_attest.c`, and the wire form of its signature.
-/

namespace BonsaiChain

open Lib

section Message

def attestDomainBytes : Bytes :=
  [0x41, 0x52, 0x50, 0x31, 0x5f, 0x41, 0x54, 0x54, 0x45, 0x53, 0x54, 0x5f, 0x56, 0x31]

def isValidDigestHex (digestHex : CString) : Bool :=
  digestHex.length == 64 && digestHex.all fun c =>
    48 ≤ c && c ≤ 57 || 97 ≤ c && c ≤ 102 || 65 ≤ c && c ≤ 70

/-- `build_msg_bytes`. -/
def buildMsgBytes (seq : UInt64) (digestHex : CString) : Except Err Bytes :=
  if 2 ^ 63 ≤ seq.toNat then .error .einval
  else if !isValidDigestHex digestHex then .error .einval
  else
    match hexDecodeFixed digestHex 32 with
    | .error _ => .error .einval
    | .ok digest => .ok (attestDomainBytes ++ leBytes 8 seq.toNat ++ digest)

def arpAttestTag : Bytes :=
  [0x41, 0x52, 0x50, 0x31, 0x5f, 0x41, 0x54, 0x54, 0x45, 0x53, 0x54, 0x5f, 0x56, 0x31]

/-- `arp_attestation_msg`. -/
def arpAttestationMsg (seq : ℤ) (activateDigest : Block 32) : Except Err Bytes := do
  let seq8 ← int2bytestringSized seq 8
  return arpAttestTag ++ seq8 ++ activateDigest.1

end Message

section Wire

/-- `attestor_pub_key`. -/
def attestorPubKey (key : RabinKey) : CString := decimal key.pubkey

def attestationWire (seq : UInt64) (sig : RabinSig) : CString :=
  decimal seq.toNat ++ 58 :: bnToHex sig.s ++ 58 :: decimal sig.paddingByteCount

/-- `rabin_attestor_sign_digest`; `none` when signing has not ended. -/
def rabinAttestorSignDigest (sha256 : Bytes → Block 32) (laps : ℕ) (key : RabinKey)
    (digestHex : CString) (seq : UInt64) : Option (Except Err CString) :=
  match buildMsgBytes seq digestHex with
  | .error e => some (.error e)
  | .ok msg => (rabinSign sha256 laps msg key).map fun r => r.map (attestationWire seq)

/-- `parse_u64_dec` behind digits of the value `v`. -/
def parseU64Digits (v : ℕ) : CString → Option ℕ
  | [] => some v
  | c :: cs =>
    if c < 48 ∨ 57 < c then none
    else if (2 ^ 64 - 1 - (c.toNat - 48)) / 10 < v then none
    else parseU64Digits (v * 10 + (c.toNat - 48)) cs

def parseU64Dec (s : CString) : Option ℕ := if s = [] then none else parseU64Digits 0 s

/-- `strchr`: what stands before and behind the first `c`. -/
def cutAt (c : UInt8) : CString → Option (CString × CString)
  | [] => none
  | d :: ds => if d = c then some ([], ds) else (cutAt c ds).map fun r => (d :: r.1, r.2)

/-- `parsed_attestation_t`. -/
structure ParsedAttestation where
  seq : UInt64
  s : ℤ
  paddingByteCount : ℕ
  deriving DecidableEq, Repr

/-- `parse_attestation`; `none` for a malformed text. -/
def parseAttestation (signature : CString) : Option ParsedAttestation :=
  match cutAt 58 signature with
  | none => none
  | some (c0, rest) =>
    match cutAt 58 rest with
    | none => none
    | some (c1, c2) =>
      if 58 ∈ c2 then none
      else
        match parseU64Dec c0, parseU64Dec c2 with
        | some seq, some pad =>
          if rabinMaxPaddingBytes < pad then none
          else if c1.length = 0 then none
          else if 1024 < c1.length then none
          else if c1.any fun c => (hexNibble c).isNone then none
          else
            match bnParseHex c1 with
            | .error _ => none
            | .ok s => some ⟨UInt64.ofNat seq, s, pad⟩
        | _, _ => none

/-- `rabin_attestation_verify`. -/
def rabinAttestationVerify (sha256 : Bytes → Block 32) (attestorPubkey digestHex : CString)
    (signature : CString) : Bool :=
  match bnParseDec attestorPubkey with
  | .error _ => false
  | .ok n =>
    match parseAttestation signature with
    | none => false
    | some att =>
      match buildMsgBytes att.seq digestHex with
      | .error _ => false
      | .ok msg => rabinVerify sha256 msg att.s att.paddingByteCount n

end Wire

end BonsaiChain
