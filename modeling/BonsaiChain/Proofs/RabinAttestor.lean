import BonsaiChain.AttestorTea
import BonsaiChain.Proofs.Bignum
import BonsaiChain.Proofs.CJson
import BonsaiChain.Proofs.Covenant
import BonsaiChain.Proofs.Rabin

/-!
# The attestation message and its wire form

Both builders write the same bytes, and the bytes determine the sequence number and the digest. The
wire form determines the signature. Two signatures slash an attestor exactly when both verify, for
different digests, under one number.
-/

namespace BonsaiChain

open Lib

section Message

theorem isValidDigestHex_eq (s : CString) : isValidDigestHex s = isHexLen s 32 := by
  have key : ∀ c : UInt8, (48 ≤ c && c ≤ 57 || 97 ≤ c && c ≤ 102 || 65 ≤ c && c ≤ 70)
      = (hexNibble c).isSome := by
    intro c
    unfold hexNibble
    split_ifs with hdigit hlower hupper
    · simp [hdigit]
    · simp [hlower]
    · simp [hupper]
    · simp_all
  unfold isValidDigestHex isHexLen
  simp only [key]

theorem buildMsgBytes_eq_ok {seq : UInt64} {digestHex : CString} {msg : Bytes} :
    buildMsgBytes seq digestHex = .ok msg ↔ seq.toNat < 2 ^ 63 ∧ ∃ digest : Block 32,
      hexDecode digestHex = .ok digest.1 ∧
        msg = attestDomainBytes ++ leBytes 8 seq.toNat ++ digest.1 := by
  unfold buildMsgBytes
  rw [error_ite_eq_ok, error_ite_eq_ok, not_le, Bool.not_eq_true', Bool.not_eq_false,
    isValidDigestHex_eq, isHexLen_iff]
  refine and_congr_right fun _ => ?_
  constructor
  · rintro ⟨⟨digest, hlen, hdec⟩, h⟩
    rw [hexDecodeFixed_eq_ok.mpr ⟨hlen, hdec⟩] at h
    exact ⟨⟨digest, hlen⟩, hdec, by simpa using h.symm⟩
  · rintro ⟨⟨digest, hlen⟩, hdec, rfl⟩
    refine ⟨⟨digest, hlen, hdec⟩, ?_⟩
    rw [hexDecodeFixed_eq_ok.mpr ⟨hlen, hdec⟩]

/-- The message depends on the digest up to letter case. -/
theorem buildMsgBytes_congr {seq : UInt64} {digestHex digestHex' : CString} {msg : Bytes}
    (h : buildMsgBytes seq digestHex = .ok msg)
    (hcase : hexToLower digestHex' = hexToLower digestHex) :
    buildMsgBytes seq digestHex' = .ok msg := by
  obtain ⟨hseq, digest, hdec, hmsg⟩ := buildMsgBytes_eq_ok.mp h
  refine buildMsgBytes_eq_ok.mpr ⟨hseq, digest, ?_, hmsg⟩
  rw [← hexDecode_hexToLower, hcase, hexDecode_hexToLower, hdec]

theorem arpAttestationMsg_eq_ok {seq : ℤ} {digest : Block 32} {msg : Bytes} :
    arpAttestationMsg seq digest = .ok msg ↔
      ∃ seq8, Covenant.num2bin seq 8 = some seq8 ∧ msg = arpAttestTag ++ seq8 ++ digest.1 := by
  simp only [arpAttestationMsg, bind_eq_ok, pure_eq_ok, Covenant.sized_eight,
    eq_comm (b := msg)]

/-- The message of the off-chain builder is that of the contract. -/
theorem buildMsgBytes_eq_arp {seq : UInt64} {digestHex : CString} {msg : Bytes} :
    buildMsgBytes seq digestHex = .ok msg ↔ seq.toNat < 2 ^ 63 ∧ ∃ digest : Block 32,
      hexDecode digestHex = .ok digest.1 ∧ arpAttestationMsg seq.toNat digest = .ok msg := by
  rw [buildMsgBytes_eq_ok]
  refine and_congr_right fun hseq => ?_
  simp only [arpAttestationMsg_eq_ok, Covenant.num2bin_natCast (show 0 < 8 by omega) hseq,
    Option.some.injEq, exists_eq_left']
  rfl

theorem arpAttestationMsg_inj {seq seq' : ℤ} {digest digest' : Block 32} {msg : Bytes}
    (h : arpAttestationMsg seq digest = .ok msg) (h' : arpAttestationMsg seq' digest' = .ok msg) :
    seq = seq' ∧ digest = digest' := by
  obtain ⟨seq8, hseq, rfl⟩ := arpAttestationMsg_eq_ok.mp h
  obtain ⟨seq8', hseq', heq⟩ := arpAttestationMsg_eq_ok.mp h'
  have hlen : seq8.length = seq8'.length := by
    rw [Covenant.num2bin_length hseq, Covenant.num2bin_length hseq']
  rw [List.append_assoc, List.append_assoc] at heq
  obtain ⟨rfl, hdigest⟩ := List.append_inj (List.append_cancel_left heq) hlen
  exact ⟨Covenant.num2bin_inj hseq hseq', Subtype.ext hdigest⟩

end Message

section Wire

theorem colon_notMem_bnToHex (n : ℕ) : 58 ∉ bnToHex n := by
  induction n using Nat.strong_induction_on with
  | h n ih =>
    have key : ∀ n < 16, 58 ∉ [hexDigit (UInt8.ofNat n)] := by decide
    by_cases hn : n < 16
    · rw [bnToHex_of_lt hn]
      exact key n hn
    · have hmod : n % 16 < 16 := Nat.mod_lt _ (by omega)
      rw [bnToHex_of_le (by omega), List.mem_append, not_or]
      exact ⟨ih _ (by omega), ih _ (by omega)⟩

theorem colon_notMem_decimal (n : ℕ) : 58 ∉ decimal n := by
  intro h
  have := (decimal_digit h).2
  simp at this

theorem decimal_inj {m n : ℕ} (h : decimal m = decimal n) : m = n := by
  rw [← CJson.digitsValue_decimal m, h, CJson.digitsValue_decimal]

/-- The first colon of a text splits it in one way. -/
theorem colon_split_inj : ∀ {x x' z z' : CString}, 58 ∉ x → 58 ∉ x' →
    x ++ 58 :: z = x' ++ 58 :: z' → x = x' ∧ z = z'
  | [], [], z, z', _, _, h => ⟨rfl, by simpa using h⟩
  | [], c :: x', z, z', _, hx', h => by
    obtain rfl : 58 = c := (List.cons.inj h).1
    simp at hx'
  | c :: x, [], z, z', hx, _, h => by
    obtain rfl : c = 58 := (List.cons.inj h).1
    simp at hx
  | c :: x, c' :: x', z, z', hx, hx', h => by
    rw [List.mem_cons, not_or] at hx hx'
    obtain ⟨hc, htail⟩ := List.cons.inj h
    obtain ⟨hxs, hz⟩ := colon_split_inj hx.2 hx'.2 htail
    exact ⟨by rw [hc, hxs], hz⟩

/-- The wire form of an attestation determines its signature. -/
theorem attestationWire_inj {seq seq' : UInt64} {sig sig' : RabinSig}
    (h : attestationWire seq sig = attestationWire seq' sig') : sig = sig' := by
  unfold attestationWire at h
  rw [List.append_assoc, List.append_assoc, List.cons_append, List.cons_append] at h
  obtain ⟨-, h⟩ := colon_split_inj (colon_notMem_decimal _) (colon_notMem_decimal _) h
  obtain ⟨hs, hpad⟩ := colon_split_inj (colon_notMem_bnToHex _) (colon_notMem_bnToHex _) h
  obtain ⟨s, pad⟩ := sig
  obtain ⟨s', pad'⟩ := sig'
  rw [RabinSig.mk.injEq]
  exact ⟨bnToHex_inj hs, decimal_inj hpad⟩

end Wire

section Parse

theorem cutAt_append {c : UInt8} : ∀ {x z : CString}, c ∉ x → cutAt c (x ++ c :: z) = some (x, z)
  | [], z, _ => by simp [cutAt]
  | d :: x, z, h => by
    obtain ⟨hne, hx⟩ := not_or.mp (List.mem_cons.not.mp h)
    rw [List.cons_append, cutAt, if_neg (Ne.symm hne), cutAt_append hx]
    rfl

/-- The overflow guard refuses no number that fits. -/
theorem parseU64Digits_eq : ∀ {cs : CString} {v n : ℕ}, decDigits v cs = some n → n < 2 ^ 64 →
    parseU64Digits v cs = some n
  | [], v, n, h, _ => h
  | c :: cs, v, n, h, hn => by
    rw [decDigits, Option.ite_none_right_eq_some] at h
    obtain ⟨⟨hlo, hhi⟩, h⟩ := h
    have hle := decDigits_le h
    have hdigit : ¬(c < 48 ∨ 57 < c) := not_or.mpr ⟨UInt8.not_lt.mpr hlo, UInt8.not_lt.mpr hhi⟩
    have hguard : ¬(2 ^ 64 - 1 - (c.toNat - 48)) / 10 < v := by omega
    rw [parseU64Digits, if_neg hdigit, if_neg hguard, mul_comm v]
    exact parseU64Digits_eq h hn

theorem parseU64Dec_decimal {n : ℕ} (h : n < 2 ^ 64) : parseU64Dec (decimal n) = some n := by
  unfold parseU64Dec
  rw [if_neg decimal_ne_nil]
  exact parseU64Digits_eq (decDigits_decimal n) h

/-- The parser reads every attestation the signer can write for a modulus below `2 ^ 4096`. -/
theorem parseAttestation_wire (seq : UInt64) {sig : RabinSig} (hs : sig.s < 2 ^ 4096)
    (hpad : sig.paddingByteCount ≤ rabinMaxPaddingBytes) :
    parseAttestation (attestationWire seq sig) = some ⟨seq, sig.s, sig.paddingByteCount⟩ := by
  have hlen : (bnToHex sig.s).length ≤ 1024 := by
    refine bnToHex_length_le (by omega) (hs.trans_eq ?_)
    rw [show (16 : ℕ) = 2 ^ 4 from rfl, ← pow_mul]
  have hne : (bnToHex sig.s).length ≠ 0 := List.length_eq_zero_iff.not.mpr (bnToHex_ne_nil _)
  have hany : ¬(bnToHex sig.s).any fun c => (hexNibble c).isNone := by
    simpa [← Option.isSome_iff_ne_none] using hexNibble_bnToHex sig.s
  have hparse := bnParseHex_digits (bnToHex_ne_nil sig.s) hlen (hexNibble_bnToHex sig.s)
  rw [hexValue_bnToHex] at hparse
  have hpad64 : sig.paddingByteCount < 2 ^ 64 := by
    unfold rabinMaxPaddingBytes at hpad
    omega
  unfold parseAttestation attestationWire
  rw [List.append_assoc, List.cons_append, cutAt_append (colon_notMem_decimal _)]
  simp only [cutAt_append (colon_notMem_bnToHex _), colon_notMem_decimal, if_false,
    parseU64Dec_decimal seq.toNat_lt, parseU64Dec_decimal hpad64, not_lt.mpr hpad, hne,
    not_lt.mpr hlen, hany, hparse, UInt64.ofNat_toNat, Bool.false_eq_true]

end Parse

section RoundTrip

variable {sha256 : Bytes → Block 32} {key : RabinKey} {digestHex : CString} {seq : UInt64}

/-- What the signer writes is parsed to what it signed with, and verifies for the digest in any
letter case. -/
theorem rabinAttestation_round_trip (hkey : key.IsBlum) (hn : key.p * key.q < 2 ^ 4096)
    (hdigest : isHexLen digestHex 32 = true) (hseq : seq.toNat < 2 ^ 63) :
    ∃ msg, buildMsgBytes seq digestHex = .ok msg ∧
      ∀ laps sig, rabinSign sha256 laps msg key = some (.ok sig) →
        sig.paddingByteCount ≤ rabinMaxPaddingBytes →
        ∃ wire, rabinAttestorSignDigest sha256 laps key digestHex seq = some (.ok wire) ∧
          parseAttestation wire = some ⟨seq, sig.s, sig.paddingByteCount⟩ ∧
          ∀ digestHex', hexToLower digestHex' = hexToLower digestHex →
            rabinAttestationVerify sha256 (attestorPubKey key) digestHex' wire = true := by
  obtain ⟨digest, hlen, hdec⟩ := isHexLen_iff.mp hdigest
  have hmsg := buildMsgBytes_eq_ok.mpr ⟨hseq, ⟨digest, hlen⟩, hdec, rfl⟩
  refine ⟨_, hmsg, fun laps sig hsign hpad => ⟨attestationWire seq sig, ?_, ?_, ?_⟩⟩
  · unfold rabinAttestorSignDigest
    rw [hmsg]
    simp only [hsign, Option.map_some, Except.map]
  · exact parseAttestation_wire seq ((rabinSign_least hkey hsign).1.trans hn) hpad
  · intro digestHex' hcase
    obtain ⟨hlt, -, -, hverify⟩ := rabinSign_least hkey hsign
    have hparse := parseAttestation_wire seq (hlt.trans hn) hpad
    have hpub : bnParseDec (attestorPubKey key) = .ok ((key.p * key.q : ℕ) : ℤ) :=
      bnParseDec_bnToDec _
    simp only [rabinAttestationVerify, hpub, hparse, buildMsgBytes_congr hmsg hcase, hverify hpad]

end RoundTrip

section Example

theorem rabinAttestation_round_trip_uppercase :
    ∃ wire, rabinAttestorSignDigest sha256 20 exampleRabinKey (List.replicate 64 65) 1
        = some (.ok wire) ∧
      parseAttestation wire = some ⟨1, 915049, 0⟩ ∧
      rabinAttestationVerify sha256 (attestorPubKey exampleRabinKey) (List.replicate 64 97) wire
        = true := by
  have hn : exampleRabinKey.p * exampleRabinKey.q < 2 ^ 4096 :=
    calc exampleRabinKey.p * exampleRabinKey.q < 2 ^ 21 := by decide
      _ ≤ 2 ^ 4096 := pow_le_pow_right₀ one_le_two (by omega)
  have hmsg : buildMsgBytes 1 (List.replicate 64 65)
      = .ok (attestDomainBytes ++ leBytes 8 1 ++ List.replicate 32 170) := by decide +kernel
  have hsign : rabinSign sha256 20
      (attestDomainBytes ++ leBytes 8 1 ++ List.replicate 32 170) exampleRabinKey
      = some (.ok ⟨915049, 0⟩) := by decide +kernel
  obtain ⟨msg, hbuilt, h⟩ := @rabinAttestation_round_trip sha256 exampleRabinKey
    (List.replicate 64 65) 1 exampleRabinKey_isBlum hn (by decide +kernel) (by decide)
  obtain rfl := Except.ok.inj (hmsg.symm.trans hbuilt)
  obtain ⟨wire, hwire, hparse, hverify⟩ := h 20 ⟨915049, 0⟩ hsign (by decide)
  exact ⟨wire, hwire, hparse, hverify _ (by decide +kernel)⟩

end Example

section Equivocation

variable {sha256 : Bytes → Block 32} {c : AttestorTea} {seq : ℤ} {digestA digestB : Block 32}
  {sigA sigB : RabinVerifierSig}

theorem attestorTeaCheckEquivocation_eq_true :
    attestorTeaCheckEquivocation sha256 c seq digestA sigA digestB sigB = .ok true ↔
      digestA ≠ digestB ∧
      (∃ msg, arpAttestationMsg seq digestA = .ok msg ∧
        rabinVerifierVerifySig sha256 msg sigA c.params.attestorRabinPubkey = true) ∧
      ∃ msg, arpAttestationMsg seq digestB = .ok msg ∧
        rabinVerifierVerifySig sha256 msg sigB c.params.attestorRabinPubkey = true := by
  unfold attestorTeaCheckEquivocation
  by_cases hd : digestA = digestB
  · simp [hd, pure, Except.pure]
  rw [if_neg hd]
  rcases arpAttestationMsg seq digestA with e | msgA
  · simp [bind, Except.bind]
  by_cases hA : rabinVerifierVerifySig sha256 msgA sigA c.params.attestorRabinPubkey = true
  · rcases arpAttestationMsg seq digestB with e | msgB
    · simp [hA, bind, Except.bind]
    · simp [hA, hd, bind, Except.bind, pure, Except.pure]
  · simp [hA, bind, Except.bind, pure, Except.pure]

end Equivocation

end BonsaiChain
