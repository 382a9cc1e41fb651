import BonsaiChain.Lib.Results
import BonsaiChain.Proofs.Common
import BonsaiChain.Proofs.Varint
import BonsaiChain.Tx

/-!
# The transaction codec is a bijection

Reading succeeds on exactly the prints of the transactions whose input txids are lower-case display
hex and whose counts and lengths fit a `uint64_t`: a transaction has one wire form, and what is
accepted re-serializes to the bytes it came from.
-/

namespace BonsaiChain

open Lib

/-- A display txid: the lower-case hex of 32 bytes. -/
def IsTxid (s : CString) : Prop := ∃ bs : Bytes, bs.length = 32 ∧ s = hexEncode bs

/-- The bytes `printTxIn` writes for an input whose txid is one. -/
def txInBytes (i : TxIn) : Bytes :=
  ((hexDecode i.prevTxidDisplay).toOption.getD []).reverse ++ u32le i.vout
    ++ printSized i.scriptSig ++ u32le i.sequence

def TxIn.Ok (i : TxIn) : Prop := IsTxid i.prevTxidDisplay ∧ i.scriptSig.length < 2 ^ 64

def TxOut.Ok (o : TxOut) : Prop := o.script.length < 2 ^ 64

structure Tx.Ok (tx : Tx) : Prop where
  inputs : ∀ i ∈ tx.inputs, i.Ok
  outputs : ∀ o ∈ tx.outputs, o.Ok
  numInputs : tx.inputs.length < 2 ^ 64
  numOutputs : tx.outputs.length < 2 ^ 64

def txBytes (tx : Tx) : Bytes :=
  u32le tx.version ++ writeVarint tx.inputs.length ++ tx.inputs.flatMap txInBytes
    ++ writeVarint tx.outputs.length ++ tx.outputs.flatMap printTxOut ++ u32le tx.locktime

section Read

theorem readU32le_inverts : readU32le.Inverts u32le (fun _ => True) := by
  refine (Parser.take_inverts Err.eparse 4).map ?_ ?_ ?_ ?_
  · intro bs hbs
    have hlt := leNat_lt bs
    rw [hbs] at hlt
    rw [UInt32.toNat_ofNat', Nat.mod_eq_of_lt (by omega)]
    exact leBytes_leNat_of_length hbs
  · intro v _
    have hlt : v.toNat < 256 ^ 4 := v.toNat_lt
    simp only [leNat_leBytes_of_lt hlt, UInt32.ofNat_toNat]
  · exact fun _ _ => trivial
  · exact fun v _ => leBytes_length 4 v.toNat

theorem readU64le_inverts : readU64le.Inverts u64le (fun _ => True) := by
  refine (Parser.take_inverts Err.eparse 8).map ?_ ?_ ?_ ?_
  · intro bs hbs
    have hlt := leNat_lt bs
    rw [hbs] at hlt
    rw [UInt64.toNat_ofNat', Nat.mod_eq_of_lt (by omega)]
    exact leBytes_leNat_of_length hbs
  · intro v _
    have hlt : v.toNat < 256 ^ 8 := v.toNat_lt
    simp only [leNat_leBytes_of_lt hlt, UInt64.ofNat_toNat]
  · exact fun _ _ => trivial
  · exact fun v _ => leBytes_length 8 v.toNat

theorem readSized_inverts : readSized.Inverts printSized (fun bs => bs.length < 2 ^ 64) := by
  intro ts bs rest
  simp only [readSized, Parser.andThen_eq_ok, readVarint_inverts ts, Parser.take_eq_ok, printSized]
  constructor
  · rintro ⟨_, _, ⟨hn, rfl⟩, rfl, rfl⟩
    exact ⟨hn, by simp⟩
  · rintro ⟨hn, rfl⟩
    exact ⟨bs.length, bs ++ rest, ⟨hn, by simp⟩, rfl, rfl⟩

theorem txInBytes_hexEncode (wire : Bytes) (vout sequence : UInt32) (scriptSig : Bytes) :
    txInBytes ⟨hexEncode wire.reverse, vout, scriptSig, sequence⟩
      = wire ++ u32le vout ++ printSized scriptSig ++ u32le sequence := by
  simp [txInBytes, Except.toOption]

theorem readTxIn_inverts : readTxIn.Inverts txInBytes TxIn.Ok := by
  intro ts i rest
  simp only [readTxIn, Parser.andThen_eq_ok, Parser.take_eq_ok, readU32le_inverts _,
    readSized_inverts _, Parser.done_eq_ok, true_and]
  constructor
  · rintro ⟨wire, _, ⟨hw, rfl⟩, vout, _, rfl, sig, _, ⟨hs, rfl⟩, sequence, _, rfl, rfl, rfl⟩
    refine ⟨⟨⟨wire.reverse, by simp [hw], rfl⟩, hs⟩, ?_⟩
    simp [txInBytes_hexEncode]
  · rintro ⟨⟨⟨bs, hbs, hdisp⟩, hs⟩, rfl⟩
    obtain ⟨disp, vout, sig, sequence⟩ := i
    obtain rfl : disp = hexEncode bs := hdisp
    have hbytes := txInBytes_hexEncode bs.reverse vout sequence sig
    rw [List.reverse_reverse] at hbytes
    rw [hbytes]
    exact ⟨bs.reverse, u32le vout ++ (printSized sig ++ (u32le sequence ++ rest)),
      ⟨by simp [hbs], by simp⟩, vout, printSized sig ++ (u32le sequence ++ rest), rfl, sig,
      u32le sequence ++ rest, ⟨hs, rfl⟩, sequence, rest, rfl, by simp⟩

theorem readTxOut_inverts : readTxOut.Inverts printTxOut TxOut.Ok := by
  intro ts o rest
  simp only [readTxOut, Parser.andThen_eq_ok, readU64le_inverts _, readSized_inverts _,
    Parser.done_eq_ok, true_and]
  constructor
  · rintro ⟨satoshis, _, rfl, script, _, ⟨hs, rfl⟩, rfl, rfl⟩
    exact ⟨hs, by simp [printTxOut]⟩
  · rintro ⟨hs, rfl⟩
    exact ⟨o.satoshis, _, by simp [printTxOut], o.script, _, ⟨hs, rfl⟩, rfl, rfl⟩

/-- The check on the bytes left never stops a counted list of items of at least `size` bytes. -/
theorem readCounted_inverts {α : Type} {size : ℕ} {item : Parser Err UInt8 α} {print : α → Bytes}
    {Ok : α → Prop} (hitem : item.Inverts print Ok) (hsize : 0 < size)
    (hprint : ∀ a, Ok a → size ≤ (print a).length) :
    (readCounted size item).Inverts (fun as => writeVarint as.length ++ as.flatMap print)
      (fun as => as.length < 2 ^ 64 ∧ ∀ a ∈ as, Ok a) := by
  have hlen : ∀ as : List α, (∀ a ∈ as, Ok a) → as.length * size ≤ (as.flatMap print).length := by
    intro as
    induction as with
    | nil => simp
    | cons a as ih =>
      intro h
      have h1 := hprint a (h a (by simp))
      have h2 := ih fun b hb => h b (by simp [hb])
      simp only [List.length_cons, List.flatMap_cons, List.length_append, Nat.add_mul]
      omega
  intro ts as rest
  simp only [readCounted, Parser.andThen_eq_ok, readVarint_inverts _, hitem.count _ _]
  constructor
  · rintro ⟨n, _, ⟨hn, rfl⟩, ⟨⟩, _, hguard, ⟨rfl, has⟩, rfl⟩
    obtain ⟨-, rfl⟩ := Parser.guardLeft_eq_ok.mp hguard
    exact ⟨⟨hn, has⟩, by simp⟩
  · rintro ⟨⟨hn, has⟩, rfl⟩
    refine ⟨as.length, as.flatMap print ++ rest, ⟨hn, by simp⟩, (), _, ?_, ⟨rfl, has⟩, rfl⟩
    rw [Parser.guardLeft_eq_ok]
    have h1 := hlen as has
    refine ⟨?_, rfl⟩
    rw [decide_eq_true_eq, Nat.le_div_iff_mul_le hsize, List.length_append]
    omega

theorem u32le_length (v : UInt32) : (u32le v).length = 4 := leBytes_length 4 _

theorem u64le_length (v : UInt64) : (u64le v).length = 8 := leBytes_length 8 _

theorem txInBytes_length {i : TxIn} (h : i.Ok) : 41 ≤ (txInBytes i).length := by
  obtain ⟨⟨bs, hbs, hdisp⟩, -⟩ := h
  have hpos := writeVarint_length_pos i.scriptSig.length
  simp only [txInBytes, hdisp, hexDecode_hexEncode, Except.toOption, Option.getD_some,
    List.length_append, List.length_reverse, u32le_length, printSized, hbs]
  omega

theorem printTxOut_length (o : TxOut) : 9 ≤ (printTxOut o).length := by
  have hpos := writeVarint_length_pos o.script.length
  simp only [printTxOut, List.length_append, u64le_length, printSized]
  omega

theorem readTx_inverts : readTx.Inverts txBytes Tx.Ok := by
  have hin := readCounted_inverts readTxIn_inverts (by norm_num) fun _ h => txInBytes_length h
  have hout := readCounted_inverts readTxOut_inverts (by norm_num) fun o _ => printTxOut_length o
  intro ts tx rest
  simp only [readTx, Parser.andThen_eq_ok, readU32le_inverts _, hin _, hout _, Parser.done_eq_ok,
    true_and]
  constructor
  · rintro ⟨version, _, rfl, ins, _, ⟨⟨hni, hi⟩, rfl⟩, outs, _, ⟨⟨hno, ho⟩, rfl⟩, lock, _, rfl, rfl,
      rfl⟩
    exact ⟨⟨hi, ho, hni, hno⟩, by simp [txBytes]⟩
  · rintro ⟨⟨hi, ho, hni, hno⟩, rfl⟩
    refine ⟨tx.version,
      writeVarint tx.inputs.length ++ tx.inputs.flatMap txInBytes ++ (writeVarint tx.outputs.length
        ++ tx.outputs.flatMap printTxOut ++ (u32le tx.locktime ++ rest)), ?_, tx.inputs, _,
      ⟨⟨hni, hi⟩, rfl⟩, tx.outputs, _, ⟨⟨hno, ho⟩, rfl⟩, tx.locktime, rest, rfl, rfl, rfl⟩
    simp [txBytes]

/-- Deserialization accepts exactly the hex of the wire forms. -/
theorem txDeserialize_eq_ok {hex : CString} {tx : Tx} :
    txDeserialize hex = .ok tx ↔ tx.Ok ∧ hexDecode hex = .ok (txBytes tx) := by
  unfold txDeserialize
  cases h : hexDecode hex with
  | error e => simp
  | ok raw => simp only [readTx_inverts.whole, Except.ok.injEq]

end Read

section Print

theorem wireTxid_eq_ok {display : CString} {wire : Bytes} :
    wireTxid display = .ok wire ↔ wire.length = 32 ∧ hexDecode display = .ok wire.reverse := by
  unfold wireTxid
  cases h : hexDecodeFixed display 32 with
  | error e =>
    simp only [reduceCtorEq, false_iff, not_and]
    intro hw hd
    rw [hexDecodeFixed_eq_ok.mpr ⟨by simpa using hw, hd⟩] at h
    cases h
  | ok disp =>
    obtain ⟨hlen, hdec⟩ := hexDecodeFixed_eq_ok.mp h
    rw [hdec]
    simp only [Except.ok.injEq]
    constructor
    · rintro rfl
      simp [hlen]
    · rintro ⟨-, rfl⟩
      simp

theorem printTxIn_of_ok {i : TxIn} (h : IsTxid i.prevTxidDisplay) :
    printTxIn i = .ok (txInBytes i) := by
  obtain ⟨bs, hbs, hdisp⟩ := h
  have hwire : wireTxid i.prevTxidDisplay = .ok bs.reverse := by
    rw [wireTxid_eq_ok, hdisp]
    simp [hbs]
  unfold printTxIn
  rw [hwire]
  simp [txInBytes, hdisp, Except.toOption, bind, Except.bind, pure, Except.pure]

theorem mapM_printTxIn : ∀ {is : List TxIn}, (∀ i ∈ is, IsTxid i.prevTxidDisplay) →
    is.mapM printTxIn = Except.ok (is.map txInBytes)
  | [], _ => rfl
  | i :: is, h => by
    rw [List.mapM_cons, printTxIn_of_ok (h i (by simp)),
      mapM_printTxIn fun j hj => h j (by simp [hj])]
    rfl

/-- With display txids only the append is left that can fail. -/
theorem txSerialize_eq_append {tx : Tx} (h : ∀ i ∈ tx.inputs, IsTxid i.prevTxidDisplay) :
    txSerialize tx = byteBufAppend [] (txBytes tx) := by
  unfold txSerialize
  rw [mapM_printTxIn h]
  simp only [bind, Except.bind, txBytes, List.flatMap]

theorem txSerialize_eq_ok {tx : Tx} (h : ∀ i ∈ tx.inputs, IsTxid i.prevTxidDisplay) {raw : Bytes} :
    txSerialize tx = .ok raw ↔ raw = txBytes tx ∧ (txBytes tx).length < 2 ^ 64 := by
  rw [txSerialize_eq_append h, byteBufAppend_nil_eq_ok]

theorem length_le_flatMap {α : Type} (print : α → Bytes) : ∀ {as : List α} {a : α}, a ∈ as →
    (print a).length ≤ (as.flatMap print).length
  | b :: as, a, h => by
    rw [List.flatMap_cons, List.length_append]
    rcases List.mem_cons.mp h with rfl | h
    · omega
    · have := length_le_flatMap print h
      omega

theorem length_le_flatMap_length {α : Type} (print : α → Bytes) :
    ∀ {as : List α}, (∀ a ∈ as, 1 ≤ (print a).length) → as.length ≤ (as.flatMap print).length
  | [], _ => by simp
  | a :: as, h => by
    have h1 := h a (by simp)
    have h2 := length_le_flatMap_length print fun b hb => h b (List.mem_cons_of_mem a hb)
    rw [List.flatMap_cons, List.length_append, List.length_cons]
    omega

/-- A transaction whose wire form fits in memory has every count and length in range. -/
theorem ok_of_txBytes_length {tx : Tx} (h : ∀ i ∈ tx.inputs, IsTxid i.prevTxidDisplay)
    (hlen : (txBytes tx).length < 2 ^ 64) : tx.Ok := by
  simp only [txBytes, List.length_append] at hlen
  refine ⟨fun i hi => ⟨h i hi, ?_⟩, fun o ho => ?_, ?_, ?_⟩
  · have h1 := length_le_flatMap txInBytes hi
    have h2 : i.scriptSig.length ≤ (txInBytes i).length := by
      simp only [txInBytes, printSized, List.length_append]
      omega
    omega
  · have h1 := length_le_flatMap printTxOut ho
    have h2 : o.script.length ≤ (printTxOut o).length := by
      simp only [printTxOut, printSized, List.length_append]
      omega
    unfold TxOut.Ok
    omega
  · have h1 : tx.inputs.length ≤ (tx.inputs.flatMap txInBytes).length := by
      refine length_le_flatMap_length txInBytes fun i _ => ?_
      simp only [txInBytes, List.length_append, u32le_length]
      omega
    omega
  · have h1 : tx.outputs.length ≤ (tx.outputs.flatMap printTxOut).length :=
      length_le_flatMap_length printTxOut fun o _ => by have := printTxOut_length o; omega
    omega

/-- What was serialized from display txids deserializes to the same transaction. -/
theorem txDeserialize_txSerialize {tx : Tx} (h : ∀ i ∈ tx.inputs, IsTxid i.prevTxidDisplay)
    {raw : Bytes} (hs : txSerialize tx = .ok raw) : txDeserialize (hexEncode raw) = .ok tx := by
  obtain ⟨rfl, hlen⟩ := (txSerialize_eq_ok h).mp hs
  rw [txDeserialize_eq_ok]
  exact ⟨ok_of_txBytes_length h hlen, hexDecode_hexEncode _⟩

theorem isTxid_of_wireTxid {display : CString} {wire : Bytes} (hlow : hexToLower display = display)
    (h : wireTxid display = .ok wire) : IsTxid display := by
  obtain ⟨hlen, hdec⟩ := wireTxid_eq_ok.mp h
  refine ⟨wire.reverse, by simpa using hlen, ?_⟩
  rw [hexEncode_of_hexDecode hdec, hlow]

theorem isTxid_of_mapM : ∀ {is : List TxIn} {wires : List Bytes},
    is.mapM printTxIn = Except.ok wires →
      (∀ i ∈ is, hexToLower i.prevTxidDisplay = i.prevTxidDisplay) →
      ∀ i ∈ is, IsTxid i.prevTxidDisplay
  | [], _, _, _ => by simp
  | i :: is, wires, h, hlow => by
    simp only [List.mapM_cons, bind_eq_ok, printTxIn, pure_eq_ok] at h
    obtain ⟨_, ⟨wire, hwire, -⟩, rest, hrest, -⟩ := h
    rw [List.forall_mem_cons] at hlow ⊢
    exact ⟨isTxid_of_wireTxid hlow.1 hwire, isTxid_of_mapM hrest hlow.2⟩

theorem isTxid_iff {s : CString} : IsTxid s ↔ isSha256Hex s = true ∧ hexToLower s = s := by
  unfold IsTxid isSha256Hex
  rw [isHexLen_iff]
  constructor
  · rintro ⟨bs, hbs, rfl⟩
    have hdec := hexDecode_hexEncode bs
    exact ⟨⟨bs, hbs, hdec⟩, (hexEncode_of_hexDecode hdec).symm⟩
  · rintro ⟨⟨bs, hbs, hdec⟩, hlow⟩
    exact ⟨bs, hbs, by rw [hexEncode_of_hexDecode hdec, hlow]⟩

/-- What a transaction with lower-case txids serializes to deserializes to it. -/
theorem txDeserialize_of_lower {tx : Tx} {raw : Bytes} (hs : txSerialize tx = .ok raw)
    (hlow : ∀ i ∈ tx.inputs, hexToLower i.prevTxidDisplay = i.prevTxidDisplay) :
    txDeserialize (hexEncode raw) = .ok tx := by
  have hs' := hs
  simp only [txSerialize, bind_eq_ok] at hs'
  obtain ⟨wires, hwires, -⟩ := hs'
  exact txDeserialize_txSerialize (isTxid_of_mapM hwires hlow) hs

/-- Only running out of address space keeps a transaction of display txids from the wire. -/
theorem txSerialize_eq_error {tx : Tx} (h : ∀ i ∈ tx.inputs, IsTxid i.prevTxidDisplay)
    (hlen : 2 ^ 64 ≤ (txBytes tx).length) : txSerialize tx = .error .enomem := by
  rw [txSerialize_eq_append h]
  exact byteBufAppend_nil_eq_error hlen

theorem txSerialize_of_txDeserialize {hex : CString} {tx : Tx} (hhex : hex.length ≤ sizeMax)
    (h : txDeserialize hex = .ok tx) :
    ∃ raw, hexDecode hex = .ok raw ∧ txSerialize tx = .ok raw := by
  obtain ⟨hok, hdec⟩ := txDeserialize_eq_ok.mp h
  have hlen := hexDecode_length hdec
  have hlt : (txBytes tx).length < 2 ^ 64 := by
    unfold sizeMax at hhex
    omega
  exact ⟨_, hdec, (txSerialize_eq_ok fun i hi => (hok.inputs i hi).1).mpr ⟨rfl, hlt⟩⟩

theorem tx_codec_canonical :
    (∀ tx : Tx,
      (∀ i ∈ tx.inputs,
        isSha256Hex i.prevTxidDisplay = true ∧ hexToLower i.prevTxidDisplay = i.prevTxidDisplay) →
      (2 ^ 64 ≤ (txBytes tx).length ∧ txSerialize tx = .error .enomem)
        ∨ ∃ raw, txSerialize tx = .ok raw ∧ txDeserialize (hexEncode raw) = .ok tx)
    ∧ (∀ (hex : CString) (tx : Tx), hex.length ≤ sizeMax → txDeserialize hex = .ok tx →
      ∃ raw, hexDecode hex = .ok raw ∧ txSerialize tx = .ok raw
        ∧ ∀ sha256d, txId sha256d tx = .ok (hexEncode (sha256d raw).reverse))
    ∧ ∀ (hex₁ hex₂ : CString) (tx : Tx), txDeserialize hex₁ = .ok tx → txDeserialize hex₂ = .ok tx →
      hexDecode hex₁ = hexDecode hex₂ := by
  refine ⟨fun tx h => ?_, fun hex tx hhex h => ?_, fun hex₁ hex₂ tx h₁ h₂ => ?_⟩
  · have htxid : ∀ i ∈ tx.inputs, IsTxid i.prevTxidDisplay := fun i hi => isTxid_iff.mpr (h i hi)
    by_cases hlen : (txBytes tx).length < 2 ^ 64
    · have hs := (txSerialize_eq_ok htxid).mpr ⟨rfl, hlen⟩
      exact .inr ⟨_, hs, txDeserialize_txSerialize htxid hs⟩
    · exact .inl ⟨by omega, txSerialize_eq_error htxid (by omega)⟩
  · obtain ⟨raw, hdec, hs⟩ := txSerialize_of_txDeserialize hhex h
    refine ⟨raw, hdec, hs, fun sha256d => ?_⟩
    unfold txId
    rw [hs]
    rfl
  · rw [(txDeserialize_eq_ok.mp h₁).2, (txDeserialize_eq_ok.mp h₂).2]

/-- One input, one output. -/
def sampleTx : Tx :=
  ⟨1, [⟨hexEncode (List.replicate 32 171), 0, [81], 0xffffffff⟩], [⟨1000, [81]⟩], 0⟩

theorem tx_codec_canonical_sample :
    (∃ raw, txSerialize sampleTx = .ok raw ∧ txDeserialize (hexEncode raw) = .ok sampleTx)
    ∧ (∃ raw, hexDecode (hexEncode (txBytes sampleTx)) = .ok raw ∧ txSerialize sampleTx = .ok raw
        ∧ ∀ sha256d, txId sha256d sampleTx = .ok (hexEncode (sha256d raw).reverse))
    ∧ hexDecode (hexToLower (hexEncode (txBytes sampleTx)))
        = hexDecode (hexEncode (txBytes sampleTx)) :=
  ⟨(tx_codec_canonical.1 sampleTx (by decide +kernel)).resolve_left fun h => by
      have hlen : (txBytes sampleTx).length = 62 := by decide +kernel
      omega,
    tx_codec_canonical.2.1 _ _ (by decide +kernel) (by decide +kernel),
    tx_codec_canonical.2.2 _ _ sampleTx (by decide +kernel) (by decide +kernel)⟩

end Print

end BonsaiChain
