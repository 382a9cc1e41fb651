import BonsaiChain.Blockchain
import BonsaiChain.Hash
import BonsaiChain.Lib.Results
import BonsaiChain.Proofs.Common

/-!
# What a header's bytes leave open

A header is eighty bytes on the wire, in which its time and its nonce have four each: the bytes are
those of another header exactly when the two agree in everything but what is above these four.
-/

namespace BonsaiChain

open Lib

section Wire

variable {h h' : BlockHeader} {v w : UInt64}

theorem lowBytes (v : UInt64) : [(v &&& 0xff).toUInt8, ((v >>> 8) &&& 0xff).toUInt8,
    ((v >>> 16) &&& 0xff).toUInt8, ((v >>> 24) &&& 0xff).toUInt8] = leBytes 4 v.toNat := by
  have hbyte : ∀ u : UInt64, (u &&& 0xff).toUInt8 = UInt8.ofNat u.toNat := by
    intro u
    apply UInt8.toNat_inj.1
    rw [UInt64.toNat_toUInt8, UInt64.toNat_and, UInt8.toNat_ofNat',
      show (0xff : UInt64).toNat = 2 ^ 8 - 1 from rfl, Nat.and_two_pow_sub_one_eq_mod, Nat.mod_mod]
  simp only [hbyte, leBytes, UInt64.toNat_shiftRight, Nat.shiftRight_eq_div_pow,
    Nat.div_div_eq_div_mul]
  rfl

/-- The bytes of a header. -/
def BlockHeader.wire (h : BlockHeader) : Bytes :=
  h.version.1 ++ h.prevBlockHash.1 ++ h.merkleRoot.1 ++ leBytes 4 h.time.toNat ++ h.bits.1
    ++ leBytes 4 h.nonce.toNat

theorem BlockHeader.wire_length (h : BlockHeader) : h.wire.length = 80 := by
  simp [wire, h.version.2, h.prevBlockHash.2, h.merkleRoot.2, h.bits.2]

/-- Every header is serialized. -/
theorem blockHeaderSerialize_eq (h : BlockHeader) : blockHeaderSerialize h [] = .ok h.wire := by
  have hversion := h.version.2
  have hprev := h.prevBlockHash.2
  have hroot := h.merkleRoot.2
  have hbits := h.bits.2
  have happend : ∀ {pre data : Bytes}, pre.length ≤ 80 → data.length ≤ 80 →
      byteBufAppend pre data = .ok (pre ++ data) := fun _ _ => byteBufAppend_of_lt (by omega)
  unfold blockHeaderSerialize appendLe4
  rw [lowBytes, lowBytes]
  rw [happend (by simp) (by simp [hversion]), ok_bind,
    happend (by simp [hversion]) (by simp [hprev]), ok_bind,
    happend (by simp [hversion, hprev]) (by simp [hroot]), ok_bind,
    happend (by simp [hversion, hprev, hroot]) (by simp), ok_bind,
    happend (by simp [hversion, hprev, hroot]) (by simp [hbits]), ok_bind,
    happend (by simp [hversion, hprev, hroot, hbits]) (by simp)]
  rfl

theorem leBytes_eq_iff {m n w : ℕ} : leBytes w m = leBytes w n ↔ m ≡ n [MOD 256 ^ w] := by
  refine ⟨fun heq => ?_, fun hmod => ?_⟩
  · have hnat := congrArg leNat heq
    rwa [leNat_leBytes, leNat_leBytes] at hnat
  · have hmod' : m % 256 ^ w = n % 256 ^ w := hmod
    rw [← leBytes_leNat (leBytes w m), ← leBytes_leNat (leBytes w n), leNat_leBytes, leNat_leBytes,
      hmod', leBytes_length, leBytes_length]

/-- The two are the same header on the wire, and differ. -/
structure DiffersAbove (h h' : BlockHeader) : Prop where
  version : h.version = h'.version
  prevBlockHash : h.prevBlockHash = h'.prevBlockHash
  merkleRoot : h.merkleRoot = h'.merkleRoot
  bits : h.bits = h'.bits
  time : h.time.toNat ≡ h'.time.toNat [MOD 2 ^ 32]
  nonce : h.nonce.toNat ≡ h'.nonce.toNat [MOD 2 ^ 32]
  above : h.time ≠ h'.time ∨ h.nonce ≠ h'.nonce

theorem differsAbove_iff : DiffersAbove h h' ↔ h.wire = h'.wire ∧ h ≠ h' := by
  refine ⟨fun hd => ⟨?_, ?_⟩, fun ⟨hwire, hne⟩ => ?_⟩
  · have htime : leBytes 4 h.time.toNat = leBytes 4 h'.time.toNat := leBytes_eq_iff.2 hd.time
    have hnonce : leBytes 4 h.nonce.toNat = leBytes 4 h'.nonce.toNat := leBytes_eq_iff.2 hd.nonce
    unfold BlockHeader.wire
    rw [hd.version, hd.prevBlockHash, hd.merkleRoot, hd.bits, htime, hnonce]
  · rintro rfl
    simpa using hd.above
  · unfold BlockHeader.wire at hwire
    simp only [List.append_assoc] at hwire
    obtain ⟨hversion, hwire⟩ := List.append_inj hwire (h.version.2.trans h'.version.2.symm)
    obtain ⟨hprev, hwire⟩ := List.append_inj hwire (h.prevBlockHash.2.trans h'.prevBlockHash.2.symm)
    obtain ⟨hroot, hwire⟩ := List.append_inj hwire (h.merkleRoot.2.trans h'.merkleRoot.2.symm)
    obtain ⟨htime, hwire⟩ := List.append_inj hwire (by simp)
    obtain ⟨hbits, hnonce⟩ := List.append_inj hwire (h.bits.2.trans h'.bits.2.symm)
    refine ⟨Subtype.ext hversion, Subtype.ext hprev, Subtype.ext hroot, Subtype.ext hbits,
      leBytes_eq_iff.1 htime, leBytes_eq_iff.1 hnonce, ?_⟩
    by_contra hsame
    rw [not_or, not_not, not_not] at hsame
    refine hne ?_
    cases h
    cases h'
    simp_all [Subtype.ext_iff]

end Wire

section Commitment

variable {h h' : BlockHeader}

/-- Equality of something that tells the wire forms apart. -/
theorem injective_iff_not_differsAbove {α : Type} {f : BlockHeader → α}
    (hf : f h = f h' ↔ h.wire = h'.wire) : (f h = f h' → h = h') ↔ ¬DiffersAbove h h' := by
  rw [differsAbove_iff, hf, not_and, not_not]

theorem sha256d_wire_eq_iff {P : Prims} (hinj : Set.InjOn (sha256d P) {h.wire, h'.wire}) :
    sha256d P h.wire = sha256d P h'.wire ↔ h.wire = h'.wire :=
  hinj.eq_iff (by simp) (by simp)

theorem blockHeaderHash_eq (P : Prims) (h : BlockHeader) :
    blockHeaderHash P h = .ok (sha256d P h.wire) := by
  rw [blockHeaderHash, blockHeaderSerialize_eq, ok_bind]
  rfl

theorem blockHeaderHashAsInt_eq (P : Prims) (h : BlockHeader) :
    blockHeaderHashAsInt P h = .ok (leNat (sha256d P h.wire).1 : ℤ) := by
  rw [blockHeaderHashAsInt, blockHeaderHash_eq, ok_bind]
  rfl

theorem leNat_block_inj {n : ℕ} {a b : Block n} (heq : leNat a.1 = leNat b.1) : a = b :=
  Subtype.ext (by rw [← leBytes_leNat_of_length a.2, heq, leBytes_leNat_of_length b.2])

/-- The bytes of a header and its hash commit to it against every header that does not differ from
it above the four bytes of its time or its nonce alone, and against no other. -/
theorem blockHeader_commits_iff (P : Prims) (h h' : BlockHeader) :
    (∃ bs, blockHeaderSerialize h [] = .ok bs ∧ bs.length = 80)
    ∧ ((blockHeaderSerialize h [] = blockHeaderSerialize h' [] → h = h') ↔ ¬DiffersAbove h h')
    ∧ (Set.InjOn (sha256d P) {h.wire, h'.wire} →
      ((blockHeaderHash P h = blockHeaderHash P h' → h = h') ↔ ¬DiffersAbove h h')
      ∧ ((blockHeaderHashAsInt P h = blockHeaderHashAsInt P h' → h = h') ↔ ¬DiffersAbove h h'))
    ∧ (h.time < 2 ^ 32 → h'.time < 2 ^ 32 → h.nonce < 2 ^ 32 → h'.nonce < 2 ^ 32 →
      ¬DiffersAbove h h') := by
  refine ⟨⟨_, blockHeaderSerialize_eq h, h.wire_length⟩, ?_, fun hinj => ⟨?_, ?_⟩,
    fun htime htime' hnonce hnonce' hd => ?_⟩
  · refine injective_iff_not_differsAbove (f := (blockHeaderSerialize · [])) ?_
    simp [blockHeaderSerialize_eq]
  · refine injective_iff_not_differsAbove ?_
    rw [blockHeaderHash_eq, blockHeaderHash_eq, Except.ok.injEq, sha256d_wire_eq_iff hinj]
  · refine injective_iff_not_differsAbove ?_
    rw [blockHeaderHashAsInt_eq, blockHeaderHashAsInt_eq, Except.ok.injEq, Nat.cast_inj,
      ← sha256d_wire_eq_iff hinj]
    exact ⟨leNat_block_inj, fun heq => by rw [heq]⟩
  · have hbound : ∀ {u v : UInt64}, u < 2 ^ 32 → v < 2 ^ 32 →
        u.toNat ≡ v.toNat [MOD 2 ^ 32] → u = v := by
      intro u v hu hv hmod
      rw [UInt64.lt_iff_toNat_lt] at hu hv
      exact UInt64.toNat_inj.1 (hmod.eq_of_lt_of_lt hu hv)
    rcases hd.above with hne | hne
    · exact hne (hbound htime htime' hd.time)
    · exact hne (hbound hnonce hnonce' hd.nonce)

/-- The first header of the chain, and others that differ from it in the nonce and above the
time. -/
def genesisHeader : BlockHeader where
  version := ⟨[1, 0, 0, 0], rfl⟩
  prevBlockHash := hashOf 0
  merkleRoot := hashOf 0x3ba3edfd7a7b12b27ac72c3e67768f617fc81bc3888a51323a9fb8aa4b1e5e4a
  time := 1231006505
  bits := ⟨[0xff, 0xff, 0x00, 0x1d], rfl⟩
  nonce := 2083236893

def nextNonceHeader : BlockHeader := { genesisHeader with nonce := 2083236894 }

def lateHeader : BlockHeader := { genesisHeader with time := 1231006505 + 2 ^ 32 }

theorem blockHeader_commits_iff_genesis :
    blockHeaderHash codePrims genesisHeader ≠ blockHeaderHash codePrims nextNonceHeader := by
  have hfacts : sha256d codePrims genesisHeader.wire ≠ sha256d codePrims nextNonceHeader.wire
      ∧ genesisHeader ≠ nextNonceHeader ∧ genesisHeader.time < 2 ^ 32
      ∧ nextNonceHeader.time < 2 ^ 32 ∧ genesisHeader.nonce < 2 ^ 32
      ∧ nextNonceHeader.nonce < 2 ^ 32 := by
    decide +kernel
  obtain ⟨hhash, hne, htime, htime', hnonce, hnonce'⟩ := hfacts
  obtain ⟨-, -, hcommit, hbound⟩ :=
    blockHeader_commits_iff codePrims genesisHeader nextNonceHeader
  have hinj := Set.injOn_pair.2 fun heq => absurd heq hhash
  exact fun heq => hne ((hcommit hinj).1.2 (hbound htime htime' hnonce hnonce') heq)

/-- A time that is later by all that four bytes hold is not seen. -/
theorem lateHeader_wraps :
    blockHeaderSerialize genesisHeader [] = blockHeaderSerialize lateHeader []
    ∧ genesisHeader ≠ lateHeader
    ∧ ∀ P target, blockHeaderHash P genesisHeader = blockHeaderHash P lateHeader
      ∧ isValidBlockHeader P genesisHeader target = isValidBlockHeader P lateHeader target := by
  have hfacts : genesisHeader.wire = lateHeader.wire ∧ genesisHeader ≠ lateHeader
      ∧ genesisHeader.bits = lateHeader.bits := by
    decide +kernel
  obtain ⟨hwire, hne, hbits⟩ := hfacts
  refine ⟨by rw [blockHeaderSerialize_eq, blockHeaderSerialize_eq, hwire], hne, fun P target => ?_⟩
  unfold isValidBlockHeader
  rw [blockHeaderHash_eq, blockHeaderHash_eq, blockHeaderHashAsInt_eq, blockHeaderHashAsInt_eq,
    hwire, hbits]
  exact ⟨rfl, rfl⟩

end Commitment

end BonsaiChain
