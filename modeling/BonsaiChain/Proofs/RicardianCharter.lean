import BonsaiChain.CharterParams
import BonsaiChain.Hash
import BonsaiChain.Lib.Results
import BonsaiChain.Proofs.CJson
import BonsaiChain.Proofs.Common
import BonsaiChain.RicardianCharter
import Mathlib.Data.List.Basic

/-!
# The bytes of a charter

The canonical binding is an object text as the vendored parser reads it back, and it holds no
newline. So the contract bytes split again at their last newlines, whatever the prose contains, and
a signature over them is a signature over one prose and one binding.
-/

namespace BonsaiChain

open CJson Lib

/-- A list is split at the last of its separators in one way. -/
theorem append_cons_inj_of_last {α : Type*} {xs xs' ys ys' : List α} {a : α} (hys : a ∉ ys)
    (hys' : a ∉ ys') (h : xs ++ a :: ys = xs' ++ a :: ys') : xs = xs' ∧ ys = ys' := by
  rcases List.append_eq_append_iff.mp h with ⟨as, hxs, hcons⟩ | ⟨as, hxs, hcons⟩
  · cases as with
    | nil => simpa [hxs] using hcons
    | cons b as => simp_all
  · cases as with
    | nil => simpa [hxs, eq_comm] using hcons
    | cons b as => simp_all

section Canonical

theorem jsonEscapeByte_eq (b : UInt8) : jsonEscapeByte b = escapeByte b := by
  revert b
  apply Lib.forall_byte
  decide +kernel

theorem jsonEscapeString_eq (s : CStr) : jsonEscapeString s = printStringPtr s := by
  unfold jsonEscapeString printStringPtr
  rw [funext jsonEscapeByte_eq]

theorem canonicalMember_eq (m : CStr × CStr) :
    canonicalMember m = (Member.string m.1 m.2).print := by
  unfold canonicalMember
  rw [jsonEscapeString_eq, jsonEscapeString_eq]
  rfl

theorem mapM_stringMember : ∀ ms : List (CStr × CStr),
    (ms.map fun m => (m.1, Json.string m.2)).mapM stringMember = some ms
  | [] => rfl
  | m :: ms => by
    rw [List.map_cons, List.mapM_cons, mapM_stringMember ms]
    rfl

/-- The members behind the first in the order of their names. -/
def laterMembers (b : DeploymentBinding) : List (CStr × CStr) :=
  [(cStr (ascii "designatedValidatorPubKey"), bindingText b.designatedValidatorPubkey),
    (cStr (ascii "initialSlashCheckpointHash"), bindingText b.initialSlashCheckpointHash),
    (cStr (ascii "maxSlashingTarget"), bindingText b.maxSlashingTarget),
    (cStr (ascii "minSlashConfirmations"), bindingText b.minSlashConfirmations),
    (cStr (ascii "validatorRabinPubKey"), bindingText b.validatorRabinPubkey)]

theorem insertionSort_bindingMembers (b : DeploymentBinding) :
    (bindingMembers b).insertionSort memberKeyLe
      = (cStr (ascii "agentPubKey"), bindingText b.agentPubkey) :: laterMembers b := rfl

/-- The text of the canonical binding, as an object of strings. -/
def bindingJson (b : DeploymentBinding) : Bytes :=
  objectText (.string (cStr (ascii "agentPubKey")) (bindingText b.agentPubkey))
    ((laterMembers b).map fun m => .string m.1 m.2)

theorem charterCanonicalJson_eq (b : DeploymentBinding) :
    charterCanonicalJson b = .ok (bindingJson b) := by
  have hmembers : ∀ ms : List (CStr × CStr),
      ms.map canonicalMember = (ms.map fun m => Member.string m.1 m.2).map Member.print := by
    intro ms
    rw [List.map_map]
    exact List.map_congr_left fun m _ => canonicalMember_eq m
  unfold charterCanonicalJson canonicalJson
  simp only [mapM_stringMember]
  rw [insertionSort_bindingMembers, hmembers, List.map_cons, List.cons_append, separated_print]
  rfl

/-- The six fields have the same texts; an absent field counts as the empty one. -/
structure DeploymentBinding.Same (b b' : DeploymentBinding) : Prop where
  agentPubkey : bindingText b.agentPubkey = bindingText b'.agentPubkey
  designatedValidatorPubkey :
    bindingText b.designatedValidatorPubkey = bindingText b'.designatedValidatorPubkey
  validatorRabinPubkey : bindingText b.validatorRabinPubkey = bindingText b'.validatorRabinPubkey
  maxSlashingTarget : bindingText b.maxSlashingTarget = bindingText b'.maxSlashingTarget
  minSlashConfirmations :
    bindingText b.minSlashConfirmations = bindingText b'.minSlashConfirmations
  initialSlashCheckpointHash :
    bindingText b.initialSlashCheckpointHash = bindingText b'.initialSlashCheckpointHash

variable {b b' : DeploymentBinding} {prose prose' : CStr}

/-- The object is read back as it was written, so its text determines the fields. -/
theorem bindingJson_inj (h : bindingJson b = bindingJson b') : b.Same b' := by
  have hparse := congrArg (parseValue 1) (congrArg (· ++ []) h)
  simp only [bindingJson, parseValue_objectText, Option.some.injEq, Prod.mk.injEq, and_true,
    Json.object.injEq, laterMembers, List.map_cons, List.map_nil, List.cons.injEq, true_and,
    Member.string, Json.string.injEq] at hparse
  obtain ⟨ha, hd, hi, ht, hc, hr⟩ := hparse
  exact ⟨ha, hd, hr, ht, hc, hi⟩

theorem bindingJson_congr (h : b.Same b') : bindingJson b = bindingJson b' := by
  unfold bindingJson laterMembers
  rw [h.agentPubkey, h.designatedValidatorPubkey, h.validatorRabinPubkey, h.maxSlashingTarget,
    h.minSlashConfirmations, h.initialSlashCheckpointHash]

theorem newline_notMem_bindingJson : (10 : UInt8) ∉ bindingJson b := fun h =>
  absurd (objectText_visible 10 h) (by decide)

/-- The bytes of the contract. -/
def contractBytes (prose : CStr) (b : DeploymentBinding) : Bytes :=
  prose.val ++ bindingSeparator ++ bindingJson b ++ [10]

theorem canonicalContractBytes_eq :
    canonicalContractBytes prose b = .ok (contractBytes prose b) := by
  unfold canonicalContractBytes
  rw [charterCanonicalJson_eq]
  rfl

/-- The last two newlines delimit the binding, also when the prose has newlines, separators or
bindings of its own. -/
theorem contractBytes_inj (h : contractBytes prose b = contractBytes prose' b') :
    prose = prose' ∧ b.Same b' := by
  have hsep : bindingSeparator = bindingSeparator.dropLast ++ [10] := by decide
  have hbody : prose.val ++ bindingSeparator.dropLast ++ 10 :: bindingJson b
      = prose'.val ++ bindingSeparator.dropLast ++ 10 :: bindingJson b' := by
    have := List.append_cancel_right h
    rw [hsep] at this
    simpa using this
  obtain ⟨hfront, hjson⟩ :=
    append_cons_inj_of_last newline_notMem_bindingJson newline_notMem_bindingJson hbody
  exact ⟨Subtype.ext (List.append_cancel_right hfront), bindingJson_inj hjson⟩

theorem contractBytes_congr (h : b.Same b') : contractBytes prose b = contractBytes prose b' := by
  unfold contractBytes
  rw [bindingJson_congr h]

variable {P : Prims}

theorem computeRicardianHash_eq :
    computeRicardianHash P prose b = .ok (hexEncode (P.sha256 (contractBytes prose b)).1) := by
  unfold computeRicardianHash
  rw [canonicalContractBytes_eq]
  rfl

end Canonical

section Sign

variable {P : Prims} {S : Secp256k1} {prose prose' : CStr} {b b' : DeploymentBinding}
  {key : EcdsaKey} {sig : CharterSignature}

/-- What the charter relies on of an issuer's key: libsecp256k1 parses the public key it has
serialized, and among the digests of contracts a signature of the key verifies under it for the one
it was made for only. -/
structure EcdsaKey.Binds (P : Prims) (S : Secp256k1) (key : EcdsaKey) (pub : Block 33) : Prop where
  pubkey : key.pubkey = .ok pub
  parses : S.pubkeyParse pub.1 = some pub
  verifies : ∀ prose b der, key.signLowS (P.sha256 (contractBytes prose b)) = .ok der →
    ∀ prose' b', ecdsaVerify S (P.sha256 (contractBytes prose' b')) der pub = true ↔
      P.sha256 (contractBytes prose' b') = P.sha256 (contractBytes prose b)

/-- No other contract has the hash of this one. -/
def HashDetermines (P : Prims) (prose : CStr) (b : DeploymentBinding) : Prop :=
  ∀ prose' b', computeRicardianHash P prose' b' = computeRicardianHash P prose b →
    canonicalContractBytes prose' b' = canonicalContractBytes prose b

theorem cStr_eq_of_notMem {s : CString} (h : 0 ∉ s) : (cStr s).val = s :=
  congrArg Subtype.val (cStr_val ⟨s, h⟩)

@[simp] theorem cStr_hexEncode (bs : Bytes) : (cStr (hexEncode bs)).val = hexEncode bs :=
  cStr_eq_of_notMem fun h => by
    rcases hexEncode_digit 0 h with h | h
    · exact absurd h.1 (by decide)
    · exact absurd h.1 (by decide)

@[simp] theorem asciiLower_hexEncode (bs : Bytes) : asciiLower (hexEncode bs) = hexEncode bs := by
  have hkeep : ∀ c : UInt8, 48 ≤ c ∧ c ≤ 57 ∨ 97 ≤ c ∧ c ≤ 102 →
      (if 65 ≤ c ∧ c ≤ 90 then c - 65 + 97 else c) = id c := by
    intro c h
    refine if_neg ?_
    simp only [UInt8.le_iff_toNat_le, UInt8.reduceToNat] at h ⊢
    omega
  unfold asciiLower
  rw [List.map_congr_left fun c hc => hkeep c (hexEncode_digit c hc), List.map_id]

theorem signCharter_eq_ok :
    signCharter P prose b key = .ok sig ↔
      ∃ der pub, key.signLowS (P.sha256 (contractBytes prose b)) = .ok der ∧ key.pubkey = .ok pub ∧
        sig = { algo := cStr charterAlgo
                issuerPubkey := cStr (ecdsaPubkeyToHex pub)
                signature := cStr (hexEncode der)
                ricardianHash := cStr (hexEncode (P.sha256 (contractBytes prose b)).1)
                binding := bindingCopy b } := by
  unfold signCharter
  simp only [canonicalContractBytes_eq, computeRicardianHash_eq, bind_eq_ok, pure_eq_ok,
    Except.ok.injEq, exists_eq_left']
  constructor
  · rintro ⟨der, hder, pub, hpub, rfl⟩
    exact ⟨der, pub, hder, hpub, rfl⟩
  · rintro ⟨der, pub, hder, hpub, rfl⟩
    exact ⟨der, hder, pub, hpub, rfl⟩

/-- The checks of a sidecar, all passed. -/
structure CharterSignature.Valid (P : Prims) (S : Secp256k1) (prose : CStr) (sig : CharterSignature)
    (pub : Block 33) : Prop where
  hash : ∃ rhash, sig.ricardianHash = some rhash ∧
    asciiLower rhash.val = hexEncode (P.sha256 (contractBytes prose sig.binding)).1
  issuer : ∃ hex, sig.issuerPubkey = some hex ∧ ecdsaPubkeyFromHex S hex.val = .ok pub
  signature : ∃ hex der, sig.signature = some hex ∧ hexDecode hex.val = .ok der ∧
    ecdsaVerify S (P.sha256 (contractBytes prose sig.binding)) der pub = true

/-- Of the library only its verdicts count. -/
theorem CharterSignature.Valid.of_verdicts {S' : Secp256k1} {pub : Block 33}
    (h : sig.Valid P S prose pub) (hparse : S'.pubkeyParse = S.pubkeyParse)
    (hverify : S'.verify = S.verify) : sig.Valid P S' prose pub where
  hash := h.hash
  issuer := by
    unfold ecdsaPubkeyFromHex ecdsaPubkeyParse
    rw [hparse]
    exact h.issuer
  signature := by
    unfold ecdsaVerify
    rw [hverify]
    exact h.signature

theorem verifyIssuer_eq_none {digest : Block 32} :
    verifyIssuer S digest sig = none ↔
      ∃ pub, (∃ hex, sig.issuerPubkey = some hex ∧ ecdsaPubkeyFromHex S hex.val = .ok pub) ∧
        ∃ hex der, sig.signature = some hex ∧ hexDecode hex.val = .ok der ∧
          ecdsaVerify S digest der pub = true := by
  unfold verifyIssuer
  rcases hissuer : sig.issuerPubkey with _ | issuer
  · simp
  rcases hpub : ecdsaPubkeyFromHex S issuer.val with e | pub
  · simp [hpub]
  rcases hsig : sig.signature with _ | signature
  · simp [hpub]
  rcases hder : hexDecode signature.val with e | der
  · simp [hpub, hder]
  · simp [hpub, hder]

theorem verifyCharterSignature_eq_none :
    verifyCharterSignature P S prose sig = none ↔ ∃ pub, sig.Valid P S prose pub := by
  unfold verifyCharterSignature
  rw [computeRicardianHash_eq]
  simp only [canonicalContractBytes_eq, asciiLower_hexEncode]
  rcases hrhash : sig.ricardianHash with _ | rhash
  · simp only [reduceCtorEq, false_iff]
    rintro ⟨pub, hv⟩
    obtain ⟨rhash, h, -⟩ := hv.hash
    simp [hrhash] at h
  simp only [ne_eq]
  by_cases heq : hexEncode (P.sha256 (contractBytes prose sig.binding)).1 = asciiLower rhash.val
  · rw [if_neg (not_not.mpr heq), verifyIssuer_eq_none]
    constructor
    · rintro ⟨pub, hissuer, hsig⟩
      exact ⟨pub, ⟨rhash, hrhash, heq.symm⟩, hissuer, hsig⟩
    · rintro ⟨pub, hv⟩
      exact ⟨pub, hv.issuer, hv.signature⟩
  · rw [if_pos heq]
    simp only [reduceCtorEq, false_iff]
    rintro ⟨pub, hv⟩
    obtain ⟨rhash', h, hlower⟩ := hv.hash
    obtain rfl : rhash = rhash' := by simpa [hrhash] using h
    exact heq hlower.symm

theorem ecdsaPubkeyFromHex_toHex {pub : Block 33} (h : S.pubkeyParse pub.1 = some pub) :
    ecdsaPubkeyFromHex S (ecdsaPubkeyToHex pub) = .ok pub := by
  simp [ecdsaPubkeyFromHex, ecdsaPubkeyToHex, ecdsaPubkeyParse, pub.2, h]

/-- A sidecar that carries a signature made for other bytes is not valid. -/
theorem CharterSignature.Valid.bytes_eq {pub pub' : Block 33} {sig' : CharterSignature}
    (hv : sig'.Valid P S prose' pub') (hkey : key.Binds P S pub)
    (hunique : HashDetermines P prose b)
    (hsign : signCharter P prose b key = .ok sig) (hissuer : sig'.issuerPubkey = sig.issuerPubkey)
    (hsignature : sig'.signature = sig.signature) :
    contractBytes prose' sig'.binding = contractBytes prose b := by
  obtain ⟨der, pub₀, hder, hpub, rfl⟩ := signCharter_eq_ok.mp hsign
  obtain rfl : pub₀ = pub := by simpa [hkey.pubkey] using hpub.symm
  obtain ⟨hex, hhex, hparse⟩ := hv.issuer
  obtain rfl : pub' = pub₀ := by
    rw [hissuer, Option.some.injEq] at hhex
    rw [← hhex, ecdsaPubkeyToHex, cStr_hexEncode] at hparse
    exact (Except.ok.inj ((ecdsaPubkeyFromHex_toHex hkey.parses).symm.trans hparse)).symm
  obtain ⟨text, der', htext, hdecode, hverify⟩ := hv.signature
  obtain rfl : der' = der := by
    rw [hsignature, Option.some.injEq] at htext
    rw [← htext, cStr_hexEncode, hexDecode_hexEncode] at hdecode
    exact (Except.ok.inj hdecode).symm
  have hdigest := (hkey.verifies _ _ _ hder _ _).mp hverify
  have hhash : computeRicardianHash P prose' sig'.binding = computeRicardianHash P prose b := by
    rw [computeRicardianHash_eq, computeRicardianHash_eq, hdigest]
  simpa [canonicalContractBytes_eq] using hunique prose' sig'.binding hhash

theorem signCharter_valid {pub : Block 33} (hkey : key.Binds P S pub)
    (hsign : signCharter P prose b key = .ok sig) (hsame : b'.Same b) :
    ({ sig with binding := b' } : CharterSignature).Valid P S prose pub := by
  obtain ⟨der, pub₀, hder, hpub, rfl⟩ := signCharter_eq_ok.mp hsign
  obtain rfl : pub₀ = pub := by simpa [hkey.pubkey] using hpub.symm
  have hbytes : contractBytes prose b' = contractBytes prose b := contractBytes_congr hsame
  refine ⟨⟨_, rfl, ?_⟩, ⟨_, rfl, ?_⟩, _, der, rfl, ?_, ?_⟩
  · rw [cStr_hexEncode, asciiLower_hexEncode, hbytes]
  · rw [ecdsaPubkeyToHex, cStr_hexEncode]
    exact ecdsaPubkeyFromHex_toHex hkey.parses
  · rw [cStr_hexEncode, hexDecode_hexEncode]
  · rw [hbytes]
    exact (hkey.verifies _ _ _ hder _ _).mpr rfl

/-- The bytes of a contract determine its prose and its binding. So a sidecar that was signed for
one pair verifies for it, and with its issuer and its signature no sidecar verifies for another
pair, whatever hash and algorithm it names. -/
theorem charterBinding_unambiguous :
    (∀ prose prose' b b', canonicalContractBytes prose b = canonicalContractBytes prose' b' →
      prose = prose' ∧ b.Same b') ∧
    ∀ (P : Prims) (S : Secp256k1) (key : EcdsaKey) (pub : Block 33) (prose : CStr)
      (b : DeploymentBinding) (sig : CharterSignature), key.Binds P S pub →
      HashDetermines P prose b → signCharter P prose b key = .ok sig →
      ∀ prose' b',
        (verifyCharterSignature P S prose' { sig with binding := b' } = none ↔
          prose' = prose ∧ b'.Same b) ∧
        ∀ algo rhash, verifyCharterSignature P S prose'
            ⟨algo, sig.issuerPubkey, sig.signature, rhash, b'⟩ = none →
          prose' = prose ∧ b'.Same b := by
  have hinj : ∀ prose prose' b b',
      canonicalContractBytes prose b = canonicalContractBytes prose' b' →
        prose = prose' ∧ b.Same b' := by
    intro prose prose' b b' h
    exact contractBytes_inj (by simpa [canonicalContractBytes_eq] using h)
  refine ⟨hinj, fun P S key pub prose b sig hkey hunique hsign prose' b' => ?_⟩
  have hother : ∀ algo rhash, verifyCharterSignature P S prose'
      ⟨algo, sig.issuerPubkey, sig.signature, rhash, b'⟩ = none → prose' = prose ∧ b'.Same b := by
    intro algo rhash h
    obtain ⟨pub', hv⟩ := verifyCharterSignature_eq_none.mp h
    have hbytes := hv.bytes_eq hkey hunique hsign rfl rfl
    exact contractBytes_inj hbytes
  refine ⟨⟨hother sig.algo sig.ricardianHash, ?_⟩, hother⟩
  rintro ⟨rfl, hsame⟩
  exact verifyCharterSignature_eq_none.mpr ⟨pub, signCharter_valid hkey hsign hsame⟩

end Sign

section Example

def exampleProse : CStr :=
  cStr (charterBegin ++ ascii "\nperTxLimit = 5\ndailyLimit = 9\n" ++ ascii "windowDuration = 60\n"
    ++ ascii "graduationThreshold = 3\n" ++ ascii "validatorThreshold = 4 # satoshis\n"
      ++ charterEnd)

/-- The public key of the secret 2. -/
def exampleAgentPubkey : Block 33 :=
  ⟨[0x02, 0xc6, 0x04, 0x7f, 0x94, 0x41, 0xed, 0x7d, 0x6d, 0x30, 0x45, 0x40, 0x6e, 0x95, 0xc0,
     0x7c, 0xd8, 0x5c, 0x77, 0x8e, 0x4b, 0x8c, 0xef, 0x3c, 0xa7, 0xab, 0xac, 0x09, 0xb9, 0x5c,
     0x70, 0x9e, 0xe5], rfl⟩

def exampleBinding : DeploymentBinding where
  agentPubkey := cStr (hexEncode exampleAgentPubkey.1)
  designatedValidatorPubkey := cStr (ascii "21")
  validatorRabinPubkey := cStr (ascii "77")
  maxSlashingTarget := cStr (ascii "9")
  minSlashConfirmations := cStr (ascii "6")
  initialSlashCheckpointHash := cStr (List.replicate 64 48)

def exampleDigest : Block 32 :=
  ⟨[0x72, 0x90, 0x57, 0x47, 0xda, 0xc0, 0xb3, 0xaa, 0x67, 0x1d, 0x34, 0x2b, 0xe6, 0x7f, 0xcb,
     0xcd, 0x12, 0xad, 0xd5, 0x44, 0x92, 0x4b, 0x25, 0x0b, 0x1f, 0x92, 0x5e, 0xd7, 0xc6, 0xe7,
     0x4b, 0x74], rfl⟩

/-- SHA-256 of the example's contract, and zeros for every other one. -/
def exampleCharterPrims : Prims :=
  { codePrims with
    sha256 := fun bs =>
      if bs = contractBytes exampleProse exampleBinding then exampleDigest else Block.fill 32 0 }

theorem sha256_exampleContract :
    codePrims.sha256 (contractBytes exampleProse exampleBinding) = exampleDigest := by
  decide +kernel

/-- The public key of the secret 1. -/
def exampleIssuerPubkey : Block 33 :=
  ⟨[0x02, 0x79, 0xbe, 0x66, 0x7e, 0xf9, 0xdc, 0xbb, 0xac, 0x55, 0xa0, 0x62, 0x95, 0xce, 0x87,
     0x0b, 0x07, 0x02, 0x9b, 0xfc, 0xdb, 0x2d, 0xce, 0x28, 0xd9, 0x59, 0xf2, 0x81, 0x5b, 0x16,
     0xf8, 0x17, 0x98], rfl⟩

/-- The deterministic signature of the example's digest under the secret 1. -/
def exampleDer : Bytes :=
  [0x30, 0x44, 0x02, 0x20, 0x1b, 0x06, 0xf6, 0xbe, 0x58, 0x3f, 0x05, 0x2c, 0xb2, 0x28, 0x18, 0xdb,
   0xa6, 0xcf, 0x8c, 0xf9, 0xca, 0x09, 0x5a, 0xde, 0xc3, 0x3d, 0x92, 0xb9, 0xfa, 0x15, 0xad, 0x22,
   0xdb, 0x7e, 0xd9, 0xb4, 0x02, 0x20, 0x63, 0x38, 0xd2, 0x7e, 0x27, 0x09, 0xcf, 0x6f, 0xc1, 0x18,
   0xd6, 0x58, 0x72, 0x06, 0x42, 0xf9, 0x5f, 0x6b, 0xb8, 0x0f, 0xc5, 0xa4, 0x76, 0x05, 0xe2, 0x6c,
   0x1a, 0x3f, 0xd2, 0xb3, 0xcc, 0x93]

def exampleIssuer : EcdsaKey where
  pubkey := .ok exampleIssuerPubkey
  signLowS digest := if digest = exampleDigest then .ok exampleDer else .error .ecrypto

/-- libsecp256k1 on compressed keys and the example's signature. -/
def exampleSecp : Secp256k1 where
  seckeyVerify _ := true
  pubkeyCreate _ := exampleIssuerPubkey
  pubkeyParse sec := if h : sec.length = 33 then some ⟨sec, h⟩ else none
  sign _ _ := none
  verify digest der pub := digest = exampleDigest ∧ der = exampleDer ∧ pub = exampleIssuerPubkey

theorem exampleCharterPrims_sha256 :
    exampleCharterPrims.sha256 (contractBytes exampleProse exampleBinding) = exampleDigest := by
  simp [exampleCharterPrims]

theorem exampleIssuer_signLowS {digest : Block 32} {der : Bytes} :
    exampleIssuer.signLowS digest = .ok der ↔ digest = exampleDigest ∧ der = exampleDer := by
  simp only [exampleIssuer]
  by_cases h : digest = exampleDigest
  · simp [h, eq_comm]
  · simp [h]

theorem ecdsaVerify_example {digest : Block 32} :
    ecdsaVerify exampleSecp digest exampleDer exampleIssuerPubkey = true ↔
      digest = exampleDigest := by
  have hlen : exampleDer.length ≠ 0 := by decide +kernel
  simp [ecdsaVerify, exampleSecp, hlen]

theorem exampleIssuer_binds :
    exampleIssuer.Binds exampleCharterPrims exampleSecp exampleIssuerPubkey where
  pubkey := rfl
  parses := rfl
  verifies prose b der h prose' b' := by
    obtain ⟨hdigest, rfl⟩ := exampleIssuer_signLowS.mp h
    rw [hdigest, ecdsaVerify_example]

theorem exampleIssuerPubkey_fromHex :
    ecdsaPubkeyFromHex exampleSecp (ecdsaPubkeyToHex exampleIssuerPubkey)
      = .ok exampleIssuerPubkey :=
  ecdsaPubkeyFromHex_toHex exampleIssuer_binds.parses

theorem exampleHash_determines :
    HashDetermines exampleCharterPrims exampleProse exampleBinding := by
  intro prose b h
  rw [computeRicardianHash_eq, computeRicardianHash_eq, exampleCharterPrims_sha256] at h
  have hdigest := Subtype.ext (hexEncode_inj (Except.ok.inj h))
  unfold exampleCharterPrims at hdigest
  simp only at hdigest
  split_ifs at hdigest with hbytes
  · rw [canonicalContractBytes_eq, canonicalContractBytes_eq, hbytes]
  · exact absurd hdigest (by decide)

theorem charterBinding_unambiguous_example :
    ∃ sig, signCharter exampleCharterPrims exampleProse exampleBinding exampleIssuer = .ok sig ∧
      ∀ prose' b',
        (verifyCharterSignature exampleCharterPrims exampleSecp prose' { sig with binding := b' }
          = none ↔ prose' = exampleProse ∧ b'.Same exampleBinding) ∧
        ∀ algo rhash, verifyCharterSignature exampleCharterPrims exampleSecp prose'
            ⟨algo, sig.issuerPubkey, sig.signature, rhash, b'⟩ = none →
          prose' = exampleProse ∧ b'.Same exampleBinding := by
  have hsigned : exampleIssuer.signLowS
      (exampleCharterPrims.sha256 (contractBytes exampleProse exampleBinding)) = .ok exampleDer :=
    exampleIssuer_signLowS.mpr ⟨exampleCharterPrims_sha256, rfl⟩
  have hsign := signCharter_eq_ok.mpr ⟨exampleDer, exampleIssuerPubkey, hsigned, rfl, rfl⟩
  exact ⟨_, hsign, charterBinding_unambiguous.2 _ _ _ _ _ _ _ exampleIssuer_binds
    exampleHash_determines hsign⟩

end Example

end BonsaiChain
