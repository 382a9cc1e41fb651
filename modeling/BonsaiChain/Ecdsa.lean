import BonsaiChain.Common

/-!
# ECDSA keys and signatures

`crypto/ecdsa.c` over libsecp256k1. A parsed public key is given by its compressed form.
-/

namespace BonsaiChain

/-- What libsecp256k1 answers: whether a secret is in range, its public key, the public key that a
serialized point stands for, the DER form of the low-S signature of a digest under a secret, and
whether a signature in DER form, brought to low S, verifies. -/
structure Secp256k1 where
  seckeyVerify : Block 32 → Bool
  pubkeyCreate : Block 32 → Option (Block 33)
  pubkeyParse : Bytes → Option (Block 33)
  sign : Block 32 → Block 32 → Option Bytes
  verify : Block 32 → Bytes → Block 33 → Bool

/-- A private key, by what libsecp256k1 answers for it: the compressed public key and the DER form
of the low-S signature of a digest. -/
structure EcdsaKey where
  pubkey : Except Err (Block 33)
  signLowS : Block 32 → Except Err Bytes

section Keys

variable (S : Secp256k1)

/-- The answer, or `BNS_ECRYPTO`. -/
def orCrypto {α : Type} : Option α → Except Err α
  | none => .error .ecrypto
  | some a => .ok a

def ecdsaKeyFromBytes (secret : Block 32) : Except Err EcdsaKey :=
  if S.seckeyVerify secret then
    .ok ⟨orCrypto (S.pubkeyCreate secret), fun digest => orCrypto (S.sign digest secret)⟩
  else .error .einval

def ecdsaPubkeyParse (sec : Bytes) : Except Err (Block 33) :=
  if sec.length ≠ 33 ∧ sec.length ≠ 65 then .error .eparse
  else
    match S.pubkeyParse sec with
    | none => .error .eparse
    | some pub => .ok pub

def ecdsaPubkeyFromHex (hex : CString) : Except Err (Block 33) :=
  match hexDecode hex with
  | .error _ => .error .eparse
  | .ok raw => ecdsaPubkeyParse S raw

end Keys

def ecdsaPubkeyToHex (pub : Block 33) : CString := hexEncode pub.1

def ecdsaVerify (S : Secp256k1) (digest : Block 32) (der : Bytes) (pub : Block 33) : Bool :=
  der.length ≠ 0 && S.verify digest der pub

end BonsaiChain
