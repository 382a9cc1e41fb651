import BonsaiChain.Base58Buffer
import BonsaiChain.Proofs.Common
import BonsaiChain.Proofs.Num2bin

/-!
# Base58 loses nothing

Both directions of the codec write the number of their input in the other radix, behind as many zero
digits, so each undoes the other. The buffers are wide enough for every length of the input.
-/

namespace BonsaiChain

open Lib

section Alphabet

/-- The digit as a character. -/
def b58Char (d : ℕ) : UInt8 := b58Alphabet.getD d 49

theorem b58Alphabet_facts :
    b58Alphabet.Nodup ∧ b58Alphabet.length = 58 ∧ b58Alphabet.head? = some 49 := by
  decide +kernel

theorem b58Value_char {d : ℕ} (hd : d < 58) : b58Value (b58Char d) = some d := by
  obtain ⟨hnodup, hlength, -⟩ := b58Alphabet_facts
  have hlt : d < b58Alphabet.length := by omega
  unfold b58Value b58Char
  rw [List.findIdx?_eq_some_iff_getElem]
  refine ⟨hlt, by simp [hlt], fun j hj heq => ?_⟩
  simp only [List.getD_eq_getElem?_getD, List.getElem?_eq_getElem hlt, Option.getD_some,
    beq_iff_eq] at heq
  exact absurd ((hnodup.getElem_inj_iff).1 heq) hj.ne

theorem b58Value_eq_some {c : UInt8} {d : ℕ} (h : b58Value c = some d) :
    d < 58 ∧ b58Char d = c := by
  unfold b58Value at h
  obtain ⟨hlt, heq, -⟩ := List.findIdx?_eq_some_iff_getElem.1 h
  obtain ⟨-, hlength, -⟩ := b58Alphabet_facts
  refine ⟨by omega, ?_⟩
  unfold b58Char
  rw [List.getD_eq_getElem?_getD, List.getElem?_eq_getElem hlt]
  simpa using heq

/-- Only the character `1` is the digit zero. -/
theorem b58Value_zero (c : UInt8) : b58Value c = some 0 ↔ c = 49 := by
  have hchar : b58Char 0 = 49 := by
    obtain ⟨-, -, hhead⟩ := b58Alphabet_facts
    unfold b58Char
    rw [List.getD_eq_getElem?_getD, ← List.head?_eq_getElem?, hhead]
    rfl
  refine ⟨fun h => (b58Value_eq_some h).2.symm.trans hchar, fun h => ?_⟩
  rw [h, ← hchar]
  exact b58Value_char (by omega)

end Alphabet

section Bytes

theorem ofBe_toNat (bs : Bytes) : ofBe 256 (bs.map UInt8.toNat) = leNat bs.reverse := by
  rw [ofBe, ← List.map_reverse]
  induction bs.reverse with
  | nil => rfl
  | cons b bs ih =>
    rw [List.map_cons, Nat.ofDigits_cons, ih]
    rfl

theorem toNat_lt_256 (bs : Bytes) : ∀ d ∈ bs.map UInt8.toNat, d < 256 := by
  simp only [List.mem_map, forall_exists_index, and_imp, forall_apply_eq_imp_iff₂]
  exact fun b _ => b.toNat_lt

theorem map_ofNat_toNat (bs : Bytes) : (bs.map UInt8.toNat).map UInt8.ofNat = bs := by
  rw [List.map_map]
  exact (List.map_congr_left fun b _ => UInt8.ofNat_toNat).trans (List.map_id bs)

theorem map_toNat_ofNat {ds : List ℕ} (h : ∀ d ∈ ds, d < 256) :
    (ds.map UInt8.ofNat).map UInt8.toNat = ds := by
  rw [List.map_map]
  refine (List.map_congr_left fun d hd => ?_).trans (List.map_id ds)
  exact toNat_ofNat_of_lt (h d hd)

/-- The magnitude of a number is its digits in base 256. -/
theorem bnMagnitudeLe_eq (n : ℕ) : bnMagnitudeLe n = (Nat.digits 256 n).map UInt8.ofNat := by
  have hlt : ∀ d ∈ Nat.digits 256 n, d < 256 := fun d hd => Nat.digits_lt_base (by omega) hd
  have hval : leNat ((Nat.digits 256 n).map UInt8.ofNat) = n := by
    have h := ofBe_toNat ((Nat.digits 256 n).map UInt8.ofNat).reverse
    rw [List.reverse_reverse, List.map_reverse, map_toNat_ofNat hlt, ofBe_digits] at h
    exact h.symm
  have hlen : ((Nat.digits 256 n).map UInt8.ofNat).length = bnNumBytes n := by
    rw [List.length_map]
    refine le_antisymm ?_ ?_
    · rw [Nat.digits_length_le_iff (by omega)]
      exact bnMagnitude_lt n
    · rw [bnNumBytes_le_iff]
      exact Nat.lt_base_pow_length_digits (by omega)
  have h := leBytes_leNat_of_length hlen
  rw [hval] at h
  exact h

end Bytes

section Codec

variable {str : CString} {vs : List ℕ}

theorem b58Char_eq_one {d : ℕ} (hd : d < 58) : b58Char d = 49 ↔ d = 0 := by
  refine ⟨fun h => ?_, fun h => ?_⟩
  · have hvalue := b58Value_char hd
    rw [h, (b58Value_zero 49).2 rfl] at hvalue
    exact (Option.some.inj hvalue).symm
  · rw [h]
    exact (b58Value_eq_some ((b58Value_zero 49).2 rfl)).2

theorem takeWhile_ones (hvs : ∀ v ∈ vs, v < 58) :
    (vs.map b58Char).takeWhile (· == 49) = (vs.takeWhile (· == 0)).map b58Char := by
  induction vs with
  | nil => rfl
  | cons v vs ih =>
    simp only [List.mem_cons, forall_eq_or_imp] at hvs
    have hchar := b58Char_eq_one hvs.1
    by_cases hv : v = 0
    · rw [List.map_cons, List.takeWhile_cons_of_pos (by simpa using hchar.2 hv),
        List.takeWhile_cons_of_pos (by simpa using hv), List.map_cons, ih hvs.2]
    · rw [List.map_cons, List.takeWhile_cons_of_neg (by simpa using mt hchar.1 hv),
        List.takeWhile_cons_of_neg (by simpa using hv), List.map_nil]

theorem dropWhile_ones (hvs : ∀ v ∈ vs, v < 58) :
    (vs.map b58Char).dropWhile (· == 49) = (vs.dropWhile (· == 0)).map b58Char := by
  have h : (vs.map b58Char).takeWhile (· == 49) ++ (vs.map b58Char).dropWhile (· == 49)
      = (vs.takeWhile (· == 0)).map b58Char ++ (vs.dropWhile (· == 0)).map b58Char := by
    rw [List.takeWhile_append_dropWhile, ← List.map_append, List.takeWhile_append_dropWhile]
  rw [takeWhile_ones hvs] at h
  exact List.append_cancel_left h

theorem b58Digits_map (hvs : ∀ v ∈ vs, v < 58) (high : ℕ) :
    b58Digits high (vs.map b58Char) = some (vs.foldl (fun n v => n * 58 + v) high) := by
  induction vs generalizing high with
  | nil => rfl
  | cons v vs ih =>
    simp only [List.mem_cons, forall_eq_or_imp] at hvs
    rw [List.map_cons, b58Digits, b58Value_char hvs.1]
    exact ih hvs.2 _

theorem b58Digits_eq_some : ∀ {str : CString} {high n : ℕ}, b58Digits high str = some n →
    ∃ vs : List ℕ, (∀ v ∈ vs, v < 58) ∧ str = vs.map b58Char
  | [], _, _, _ => ⟨[], by simp, rfl⟩
  | c :: cs, high, n, h => by
    rw [b58Digits, Option.bind_eq_some_iff] at h
    obtain ⟨v, hv, hcs⟩ := h
    obtain ⟨vs, hvs, rfl⟩ := b58Digits_eq_some hcs
    obtain ⟨hlt, rfl⟩ := b58Value_eq_some hv
    exact ⟨v :: vs, by simpa using ⟨hlt, hvs⟩, rfl⟩

/-- The characters that are read are those of the decoder without a buffer. -/
theorem b58ReadBuf_map (hvs : ∀ v ∈ vs, v < 58) (s : List ℕ × ℕ) :
    b58ReadBuf s (vs.map b58Char) = .ok (vs.foldl (radixStep 58 256) s) := by
  induction vs generalizing s with
  | nil => rfl
  | cons v vs ih =>
    simp only [List.mem_cons, forall_eq_or_imp] at hvs
    rw [List.map_cons, b58ReadBuf, b58Value_char hvs.1]
    exact ih hvs.2 _

theorem b58ReadBuf_eq_error : ∀ {str : CString} {s : List ℕ × ℕ} (high : ℕ),
    b58Digits high str = none → b58ReadBuf s str = .error .eparse
  | [], _, _, h => nomatch h
  | c :: cs, s, high, h => by
    rw [b58Digits] at h
    rw [b58ReadBuf]
    rcases hv : b58Value c with _ | v
    · rfl
    · rw [hv] at h
      exact b58ReadBuf_eq_error _ h

theorem takeWhile_zero_bytes (data : Bytes) : (data.map UInt8.toNat).takeWhile (· == 0)
    = List.replicate (data.takeWhile (· == 0)).length 0 := by
  induction data with
  | nil => rfl
  | cons b bs ih =>
    by_cases hb : b = 0
    · rw [List.map_cons, List.takeWhile_cons_of_pos (by simp [hb]),
        List.takeWhile_cons_of_pos (by simp [hb]), ih, hb]
      rfl
    · have hne : b.toNat ≠ 0 := fun h => hb (UInt8.toNat_inj.mp h)
      rw [List.map_cons, List.takeWhile_cons_of_neg (by simpa using hne),
        List.takeWhile_cons_of_neg (by simpa using hb)]
      rfl

theorem dropWhile_zero_bytes (data : Bytes) :
    (data.drop (data.takeWhile (· == 0)).length).map UInt8.toNat
      = (data.map UInt8.toNat).dropWhile (· == 0) := by
  have h := List.takeWhile_append_dropWhile (p := (· == 0)) (l := data.map UInt8.toNat)
  rw [takeWhile_zero_bytes] at h
  rw [List.map_drop, ← h, List.drop_left' (List.length_replicate ..)]
  rw [h]

theorem ofBe_dropWhile (base : ℕ) (ds : List ℕ) :
    ofBe base (ds.dropWhile (· == 0)) = ofBe base ds := by
  rw [← ofBe_zeros_append _ (takeWhile_zeros ds), List.takeWhile_append_dropWhile]

theorem base58Encode_eq (data : Bytes) :
    base58Encode data = (rebase 256 58 (data.map UInt8.toNat)).map b58Char := by
  rw [rebase, List.map_append, takeWhile_zero_bytes, List.map_replicate, ofBe_toNat, base58Encode,
    (b58Char_eq_one (by omega)).2 rfl]
  rfl

theorem base58Decode_map (hvs : ∀ v ∈ vs, v < 58) :
    base58Decode (vs.map b58Char) = .ok ((rebase 58 256 vs).map UInt8.ofNat) := by
  have hrest : ∀ v ∈ vs.dropWhile (· == 0), v < 58 := fun v hv =>
    hvs v ((List.dropWhile_sublist _).subset hv)
  have hzeros : (vs.takeWhile (· == 0)).map UInt8.ofNat
      = List.replicate (vs.takeWhile (· == 0)).length 0 := by
    rw [List.eq_replicate_iff]
    refine ⟨List.length_map .., fun b hb => ?_⟩
    obtain ⟨v, hv, rfl⟩ := List.mem_map.1 hb
    rw [takeWhile_zeros vs v hv]
    rfl
  rw [base58Decode, takeWhile_ones hvs, dropWhile_ones hvs, b58Digits_map hrest, foldl_eq_ofBe,
    ofBe_dropWhile, List.length_map, rebase, List.map_append, hzeros, List.map_reverse]
  simp only [bnMagnitudeLe_eq]

/-- The strings that decode are those of the alphabet. -/
theorem base58Decode_eq_ok {data : Bytes} (h : base58Decode str = .ok data) :
    ∃ vs : List ℕ, (∀ v ∈ vs, v < 58) ∧ str = vs.map b58Char := by
  unfold base58Decode at h
  rcases hdigits : b58Digits 0 (str.dropWhile (· == 49)) with _ | n
  · simp [hdigits] at h
  obtain ⟨vs, hvs, hstr⟩ := b58Digits_eq_some hdigits
  refine ⟨List.replicate (str.takeWhile (· == 49)).length 0 ++ vs, fun v hv => ?_, ?_⟩
  · rcases List.mem_append.1 hv with hv | hv
    · rw [List.eq_of_mem_replicate hv]
      omega
    · exact hvs v hv
  · have hones : str.takeWhile (· == 49) = List.replicate (str.takeWhile (· == 49)).length 49 := by
      rw [List.eq_replicate_iff]
      exact ⟨rfl, fun c hc => by simpa using List.mem_takeWhile_imp hc⟩
    rw [List.map_append, List.map_replicate, (b58Char_eq_one (by omega)).2 rfl, ← hstr, ← hones,
      List.takeWhile_append_dropWhile]

/-- The buffer holds every byte string of its length. -/
theorem encodeBuf_fits (n : ℕ) : 256 ^ n ≤ 58 ^ (n * 138 / 100 + 1) :=
  pow_le_pow_ratio (by omega) (by omega) (by decide +kernel) n

/-- The buffer holds every string of its length. -/
theorem decodeBuf_fits (n : ℕ) : 58 ^ n ≤ 256 ^ (n * 733 / 1000 + 1) :=
  pow_le_pow_ratio (by omega) (by omega) (by decide +kernel) n

theorem base58EncodeBuf_eq (data : Bytes) : base58EncodeBuf data = base58Encode data := by
  have hfits : ofBe 256 ((data.map UInt8.toNat).dropWhile (· == 0))
      < 58 ^ (data.length * 138 / 100 + 1) := by
    rw [ofBe_dropWhile]
    have hlt := ofBe_lt (by omega) (toNat_lt_256 data)
    rw [List.length_map] at hlt
    exact hlt.trans_le (encodeBuf_fits data.length)
  simp only [base58EncodeBuf, dropWhile_zero_bytes]
  rw [radixBuffer_digits (by omega) (by omega) (by omega) _ hfits, ofBe_dropWhile, ofBe_toNat]
  rfl

theorem base58DecodeBuf_eq (str : CString) : base58DecodeBuf str = base58Decode str := by
  have hdrop : str.drop (str.takeWhile (· == 49)).length = str.dropWhile (· == 49) := by
    have h := List.takeWhile_append_dropWhile (p := (· == 49)) (l := str)
    rw [← h, List.drop_left' (by rw [h]), h]
  unfold base58DecodeBuf base58Decode
  simp only [hdrop]
  rcases hdigits : b58Digits 0 (str.dropWhile (· == 49)) with _ | n
  · rw [b58ReadBuf_eq_error 0 hdigits]
  obtain ⟨vs, hvs, hstr⟩ := b58Digits_eq_some hdigits
  have hlen : vs.length ≤ str.length := by
    have h := (List.dropWhile_sublist (· == 49) (l := str)).length_le
    rwa [hstr, List.length_map] at h
  have hfits : ofBe 58 vs < 256 ^ (str.length * 733 / 1000 + 1) :=
    calc ofBe 58 vs < 58 ^ vs.length := ofBe_lt (by omega) hvs
      _ ≤ 58 ^ str.length := Nat.pow_le_pow_right (by omega) hlen
      _ ≤ _ := decodeBuf_fits str.length
  have hn : n = ofBe 58 vs := by
    rw [hstr, b58Digits_map hvs, foldl_eq_ofBe] at hdigits
    exact (Option.some.inj hdigits).symm
  have hbuffer := radixBuffer_digits (by omega) (by omega) (by omega) vs hfits
  rw [radixBuffer] at hbuffer
  rw [hstr, b58ReadBuf_map hvs]
  simp only [hbuffer, hn, bnMagnitudeLe_eq, List.map_reverse]

end Codec

section Bijection

variable {P : Prims} {data payload : Bytes} {str : CString}

theorem base58Decode_encode (data : Bytes) : base58Decode (base58Encode data) = .ok data := by
  rw [base58Encode_eq, base58Decode_map (rebase_lt (by omega)),
    rebase_rebase (by omega) (toNat_lt_256 data), map_ofNat_toNat]

theorem base58Encode_decode (h : base58Decode str = .ok data) : base58Encode data = str := by
  obtain ⟨vs, hvs, rfl⟩ := base58Decode_eq_ok h
  rw [base58Decode_map hvs] at h
  rw [← Except.ok.inj h, base58Encode_eq, map_toNat_ofNat (rebase_lt (by omega)),
    rebase_rebase (by omega) hvs]

theorem base58checkDecode_encode (payload : Bytes) :
    base58checkDecode P (base58checkEncode P payload) = .ok payload := by
  have hsum : ((sha256d P payload).1.take 4).length = 4 := by
    rw [List.length_take, (sha256d P payload).2]
    rfl
  have hlen : (payload ++ (sha256d P payload).1.take 4).length - 4 = payload.length := by
    rw [List.length_append, hsum, Nat.add_sub_cancel]
  have hlong : ¬(payload ++ (sha256d P payload).1.take 4).length < 4 := by
    rw [List.length_append, hsum]
    omega
  simp only [base58checkDecode, base58checkEncode, bind_eq_ok, guard_eq_ok, pure_eq_ok]
  refine ⟨_, base58Decode_encode _, hlong, ?_, ?_⟩
  · simp only [hlen, List.take_left, List.drop_left, not_not]
  · rw [hlen, List.take_left]

/-- A checked string is the encoding of its payload. -/
theorem base58checkEncode_decode (h : base58checkDecode P str = .ok payload) :
    base58checkEncode P payload = str := by
  simp only [base58checkDecode, bind_eq_ok, guard_eq_ok, pure_eq_ok, not_not] at h
  obtain ⟨raw, hraw, -, hsum, rfl⟩ := h
  rw [base58checkEncode, hsum, List.take_append_drop]
  exact base58Encode_decode hraw

theorem base58checkEncodeBuf_eq (payload : Bytes) :
    base58checkEncodeBuf P payload = base58checkEncode P payload :=
  base58EncodeBuf_eq _

theorem base58checkDecodeBuf_eq (str : CString) :
    base58checkDecodeBuf P str = base58checkDecode P str := by
  rw [base58checkDecodeBuf, base58checkDecode, base58DecodeBuf_eq]

/-- What the buffers compute is a bijection between the byte strings and the strings that decode,
and so it is with the checksum. -/
theorem base58_bijective :
    (∀ data, base58DecodeBuf (base58EncodeBuf data) = .ok data)
      ∧ (∀ str data, base58DecodeBuf str = .ok data → base58EncodeBuf data = str)
      ∧ (∀ P payload, base58checkDecodeBuf P (base58checkEncodeBuf P payload) = .ok payload)
      ∧ ∀ P str payload, base58checkDecodeBuf P str = .ok payload →
        base58checkEncodeBuf P payload = str := by
  simp only [base58EncodeBuf_eq, base58DecodeBuf_eq, base58checkEncodeBuf_eq,
    base58checkDecodeBuf_eq]
  exact ⟨base58Decode_encode, fun _ _ => base58Encode_decode,
    fun _ => base58checkDecode_encode, fun _ _ _ => base58checkEncode_decode⟩

/-- Two zero bytes and the bytes of `Hello`. -/
theorem base58_bijective_hello :
    base58EncodeBuf [0, 0, 72, 101, 108, 108, 111] = ascii "119Ajdvzr" :=
  base58_bijective.2.1 _ _ (by decide +kernel)

end Bijection

end BonsaiChain
