import BonsaiChain.Hash
import BonsaiChain.Proofs.ContractCall
import BonsaiChain.Proofs.Tx
import BonsaiChain.SigningOrder
import Mathlib.Data.Set.Function

/-!
# What a signature is over

No unlocking script is in the preimage, so the steps of signing may come in any order and none
spoils another; and what is in it is committed to, as far as the hash function does not collide.
-/

namespace BonsaiChain

open Lib

section Unsigned

variable (P : Prims)

theorem outpointBytes_unsigned (i : TxIn) : outpointBytes i.unsigned = outpointBytes i := rfl

theorem mapM_outpointBytes_unsigned (is : List TxIn) :
    (is.map TxIn.unsigned).mapM outpointBytes = is.mapM outpointBytes := by
  induction is with
  | nil => rfl
  | cons i is ih => rw [List.map_cons, List.mapM_cons, List.mapM_cons, ih, outpointBytes_unsigned]

/-- No unlocking script is in the preimage. -/
theorem bip143Preimage_unsigned (tx : Tx) (idx : ℕ) (scriptCode : Bytes) (value : UInt64)
    (flag : UInt8) :
    bip143Preimage P tx.unsigned idx scriptCode value flag
      = bip143Preimage P tx idx scriptCode value flag := by
  have hseq : (tx.inputs.map TxIn.unsigned).flatMap (fun i => u32le i.sequence)
      = tx.inputs.flatMap fun i => u32le i.sequence := by
    rw [List.flatMap_map]
    rfl
  unfold bip143Preimage
  simp only [Tx.unsigned, List.getElem?_map, mapM_outpointBytes_unsigned, hseq]
  cases tx.inputs[idx]? with
  | none => rfl
  | some i => rfl

theorem contractCallPrevouts_unsigned (tx : Tx) :
    contractCallPrevouts tx.unsigned = contractCallPrevouts tx := by
  have hmap : ∀ is : List TxIn, (is.map TxIn.unsigned).mapM contractCallOutpoint
      = is.mapM contractCallOutpoint := by
    intro is
    induction is with
    | nil => rfl
    | cons i is ih =>
      rw [List.map_cons, List.mapM_cons, List.mapM_cons, ih]
      rfl
  unfold contractCallPrevouts
  simp only [Tx.unsigned, hmap]

/-- What a step computes does not depend on what other steps have written. -/
theorem SignStep.scriptSig_unsigned (tx : Tx) (s : SignStep) :
    s.scriptSig P tx.unsigned = s.scriptSig P tx := by
  cases s <;>
    simp only [SignStep.scriptSig, contractCallP2pkhScriptsig, contractRevokeScript,
      contractExecuteScript, contractRecoverScript, ContractSpend.preimage, bip143Sighash,
      bip143Preimage_unsigned, contractCallPrevouts_unsigned]

theorem SignStep.scriptSig_congr {tx tx' : Tx} (h : tx.unsigned = tx'.unsigned) (s : SignStep) :
    s.scriptSig P tx = s.scriptSig P tx' := by
  rw [← scriptSig_unsigned, h, scriptSig_unsigned]

end Unsigned

section Order

open SignStep

variable {P : Prims} {b tx : Tx}

/-- The transaction with a script on one of its inputs. -/
def withScript (tx : Tx) (index : ℕ) (script : Bytes) : Tx :=
  { tx with inputs := tx.inputs.modify index fun i => { i with scriptSig := script } }

theorem withScript_unsigned (tx : Tx) (index : ℕ) (script : Bytes) :
    (withScript tx index script).unsigned = tx.unsigned := by
  have hmap : (tx.inputs.modify index fun i => { i with scriptSig := script }).map TxIn.unsigned
      = tx.inputs.map TxIn.unsigned := by
    refine List.ext_getElem? fun k => ?_
    rw [List.getElem?_map, List.getElem?_map, List.getElem?_modify]
    cases tx.inputs[k]? with
    | none => rfl
    | some i => by_cases hk : index = k <;> simp [hk, TxIn.unsigned]
  unfold Tx.unsigned withScript
  rw [hmap]

theorem sign_eq_ok {s : SignStep} :
    s.sign P b = .ok tx ↔ ∃ script, s.scriptSig P b = .ok script ∧ s.index < b.inputs.length
      ∧ tx = withScript b s.index script := by
  simp only [sign, setScriptSig, bind_eq_ok, error_ite_eq_ok, not_le, Except.ok.injEq]
  constructor
  · rintro ⟨script, hs, hlt, rfl⟩
    exact ⟨script, hs, hlt, rfl⟩
  · rintro ⟨script, hs, hlt, rfl⟩
    exact ⟨script, hs, hlt, rfl⟩

theorem sign_unsigned {s : SignStep} (h : s.sign P b = .ok tx) : tx.unsigned = b.unsigned := by
  obtain ⟨script, -, -, rfl⟩ := sign_eq_ok.1 h
  exact withScript_unsigned b s.index script

/-- Two steps on different inputs come to the same in either order. -/
theorem sign_comm {s s' : SignStep} (hne : s.index ≠ s'.index) :
    (∃ mid, s.sign P b = .ok mid ∧ s'.sign P mid = .ok tx)
      → ∃ mid, s'.sign P b = .ok mid ∧ s.sign P mid = .ok tx := by
  rintro ⟨mid, hs, hs'⟩
  have hmid := sign_unsigned hs
  obtain ⟨script, hscript, hlt, rfl⟩ := sign_eq_ok.1 hs
  obtain ⟨script', hscript', hlt', rfl⟩ := sign_eq_ok.1 hs'
  rw [scriptSig_congr P hmid] at hscript'
  have hlen : (withScript b s.index script).inputs.length = b.inputs.length :=
    List.length_modify _ _ _
  rw [hlen] at hlt'
  have hlen' : (withScript b s'.index script').inputs.length = b.inputs.length :=
    List.length_modify _ _ _
  refine ⟨withScript b s'.index script', sign_eq_ok.2 ⟨script', hscript', hlt', rfl⟩,
    sign_eq_ok.2 ⟨script, ?_, by rwa [hlen'], ?_⟩⟩
  · rw [scriptSig_congr P (withScript_unsigned b s'.index script')]
    exact hscript
  · unfold withScript
    simp only [List.modify_modify_ne _ _ _ hne]

theorem signAll_cons_eq_ok {s : SignStep} {steps : List SignStep} :
    signAll P b (s :: steps) = .ok tx
      ↔ ∃ mid, s.sign P b = .ok mid ∧ signAll P mid steps = .ok tx := by
  unfold signAll
  rw [List.foldlM_cons, bind_eq_ok]

/-- The order of the steps does not matter. -/
theorem signAll_perm {steps steps' : List SignStep} (h : steps.Perm steps') :
    (steps.map index).Nodup → ∀ {b : Tx}, signAll P b steps = .ok tx →
    signAll P b steps' = .ok tx := by
  induction h with
  | nil => exact fun _ _ h => h
  | cons s _ ih =>
    intro hn b hsign
    obtain ⟨mid, hs, hrest⟩ := signAll_cons_eq_ok.1 hsign
    exact signAll_cons_eq_ok.2 ⟨mid, hs, ih (List.nodup_cons.1 hn).2 hrest⟩
  | swap s s' steps =>
    intro hn b hsign
    have hne : s'.index ≠ s.index := fun he => (List.nodup_cons.1 hn).1 (by simp [he])
    obtain ⟨mid, hs', hsign⟩ := signAll_cons_eq_ok.1 hsign
    obtain ⟨mid', hs, hrest⟩ := signAll_cons_eq_ok.1 hsign
    obtain ⟨mid'', hs, hs'⟩ := sign_comm hne ⟨mid, hs', hs⟩
    exact signAll_cons_eq_ok.2 ⟨mid'', hs, signAll_cons_eq_ok.2 ⟨mid', hs', hrest⟩⟩
  | trans h _ ih ih' =>
    intro hn b hsign
    exact ih' ((h.map index).nodup_iff.1 hn) (ih hn hsign)

theorem signAll_unsigned : ∀ {steps : List SignStep} {b : Tx}, signAll P b steps = .ok tx →
    tx.unsigned = b.unsigned
  | [], b, h => by
    obtain rfl : b = tx := Except.ok.inj h
    rfl
  | s :: steps, b, h => by
    obtain ⟨mid, hs, hrest⟩ := signAll_cons_eq_ok.1 h
    rw [signAll_unsigned hrest, sign_unsigned hs]

/-- The steps leave the inputs alone on which none of them works. -/
theorem signAll_getElem? {k : ℕ} : ∀ {steps : List SignStep} {b : Tx}, signAll P b steps = .ok tx →
    k ∉ steps.map index → tx.inputs[k]? = b.inputs[k]?
  | [], b, h, _ => by
    obtain rfl : b = tx := Except.ok.inj h
    rfl
  | s :: steps, b, h, hk => by
    obtain ⟨mid, hs, hrest⟩ := signAll_cons_eq_ok.1 h
    simp only [List.map_cons, List.mem_cons, not_or] at hk
    obtain ⟨script, -, -, rfl⟩ := sign_eq_ok.1 hs
    rw [signAll_getElem? hrest hk.2, withScript, List.getElem?_modify_ne _ _ (Ne.symm hk.1)]

/-- Every step's script is on its input in the end, and is the one the step would compute then. -/
theorem signAll_scripts : ∀ {steps : List SignStep} {b : Tx}, (steps.map index).Nodup →
    signAll P b steps = .ok tx → ∀ s ∈ steps, ∃ script, s.scriptSig P tx = .ok script
      ∧ (tx.inputs[s.index]?).map (·.scriptSig) = some script
  | [], _, _, _, _, hs => by simp at hs
  | s₀ :: steps, b, hn, h, s, hs => by
    have hall := signAll_unsigned h
    obtain ⟨mid, hs₀, hrest⟩ := signAll_cons_eq_ok.1 h
    rw [List.map_cons, List.nodup_cons] at hn
    rcases List.mem_cons.1 hs with rfl | hs
    · obtain ⟨script, hscript, hlt, rfl⟩ := sign_eq_ok.1 hs₀
      refine ⟨script, by rw [scriptSig_congr P hall, hscript], ?_⟩
      rw [signAll_getElem? hrest hn.1, withScript, List.getElem?_modify_eq,
        List.getElem?_eq_getElem hlt]
      rfl
    · exact signAll_scripts hn.2 hrest s hs

/-- A method call is its contract input's step and then those of the funding inputs. -/
theorem contractSignFundingInputs_eq (b : Tx) (fs : List ContractFundingInput) :
    contractSignFundingInputs P b fs = signAll P b (fs.map .funding) := by
  induction fs generalizing b with
  | nil => rfl
  | cons f fs ih =>
    unfold contractSignFundingInputs signAll
    rw [List.map_cons, List.foldlM_cons, sign]
    simp only [bind_assoc, ih]
    rfl

theorem finishCall_eq {s : SignStep} {c : ContractSpend} (hindex : s.index = c.contractInputIndex)
    (funding : List ContractFundingInput) :
    (do let script ← s.scriptSig P b; finishCall P b c script funding)
      = (do let tx ← signAll P b (s :: funding.map .funding); txBuilderBuildHex tx) := by
  unfold finishCall
  simp only [contractSignFundingInputs_eq, ← hindex, signAll, List.foldlM_cons, sign, bind_assoc]

end Order

section Committed

variable {P : Prims} {tx tx' : Tx} {idx idx' : ℕ} {scriptCode scriptCode' : Bytes}
  {value value' : UInt64} {pre : Bytes}

theorem outpointBytes_eq_ok {i : TxIn} {bs : Bytes} :
    outpointBytes i = .ok bs ↔ ∃ be, hexDecode i.prevTxidDisplay = .ok be ∧ be.length = 32
      ∧ bs = be.reverse ++ u32le i.vout := by
  simp only [outpointBytes, bind_eq_ok, hexDecodeFixed_eq_ok, pure_eq_ok]
  constructor
  · rintro ⟨be, ⟨hlen, hdec⟩, rfl⟩
    exact ⟨be, hdec, hlen, rfl⟩
  · rintro ⟨be, hdec, hlen, rfl⟩
    exact ⟨be, ⟨hlen, hdec⟩, rfl⟩

theorem outpointBytes_length {i : TxIn} {bs : Bytes} (h : outpointBytes i = .ok bs) :
    bs.length = 36 := by
  obtain ⟨be, -, hlen, rfl⟩ := outpointBytes_eq_ok.1 h
  simp [hlen, u32le_length]

theorem u32le_inj {v w : UInt32} (h : u32le v = u32le w) : v = w := by
  have hlt : ∀ u : UInt32, u.toNat < 256 ^ 4 := fun u => u.toNat_lt
  exact UInt32.toNat_inj.1 (leBytes_inj (hlt v) (hlt w) h)

theorem u64le_inj {v w : UInt64} (h : u64le v = u64le w) : v = w := by
  have hlt : ∀ u : UInt64, u.toNat < 256 ^ 8 := fun u => u.toNat_lt
  exact UInt64.toNat_inj.1 (leBytes_inj (hlt v) (hlt w) h)

/-- The bytes of an outpoint say which it is. -/
theorem outpoint_eq_of_bytes {i i' : TxIn} {bs : Bytes} (h : outpointBytes i = .ok bs)
    (h' : outpointBytes i' = .ok bs) : i.outpoint = i'.outpoint := by
  obtain ⟨be, hdec, hlen, rfl⟩ := outpointBytes_eq_ok.1 h
  obtain ⟨be', hdec', hlen', heq⟩ := outpointBytes_eq_ok.1 h'
  obtain ⟨hbe, hvout⟩ := List.append_inj heq (by simp [hlen, hlen'])
  unfold TxIn.outpoint
  rw [hdec, hdec', List.reverse_inj.1 hbe, u32le_inj hvout]

theorem contractCallOutpoint_eq_ok {i : TxIn} {bs : Bytes} :
    contractCallOutpoint i = .ok bs ↔ outpointBytes i = .ok bs := by
  unfold contractCallOutpoint outpointBytes
  cases hexDecodeFixed i.prevTxidDisplay 32 with
  | error e => simp [bind, Except.bind]
  | ok be => rfl

theorem mapM_outpoint_eq_ok : ∀ {is : List TxIn} {wires : List Bytes},
    is.mapM outpointBytes = .ok wires ↔ is.mapM contractCallOutpoint = .ok wires
  | [], wires => Iff.rfl
  | i :: is, wires => by
    simp only [List.mapM_cons, bind_eq_ok, pure_eq_ok, contractCallOutpoint_eq_ok,
      mapM_outpoint_eq_ok]

/-- The prevouts of the preimage are those the covenant is given. -/
theorem contractCallPrevouts_eq_ok {bs : Bytes} :
    contractCallPrevouts tx = .ok bs
      ↔ ∃ wires, tx.inputs.mapM outpointBytes = .ok wires ∧ bs = wires.flatten := by
  simp only [contractCallPrevouts, bind_eq_ok, pure_eq_ok, ← mapM_outpoint_eq_ok,
    eq_comm (b := bs)]

/-- The outpoints one after another say what they are. -/
theorem outpoints_eq_of_flatten : ∀ {is is' : List TxIn} {wires wires' : List Bytes},
    is.mapM outpointBytes = .ok wires → is'.mapM outpointBytes = .ok wires' →
    wires.flatten = wires'.flatten → is.map TxIn.outpoint = is'.map TxIn.outpoint
  | [], [], _, _, _, _, _ => rfl
  | [], i' :: is', wires, wires', h, h', heq => by
    simp only [List.mapM_cons, bind_eq_ok, pure_eq_ok] at h'
    obtain ⟨bs, hbs, rest, -, rfl⟩ := h'
    obtain rfl : [] = wires := Except.ok.inj h
    have hlen := congrArg List.length heq
    simp only [List.flatten_nil, List.length_nil, List.flatten_cons, List.length_append,
      outpointBytes_length hbs] at hlen
    omega
  | i :: is, [], wires, wires', h, h', heq => by
    simp only [List.mapM_cons, bind_eq_ok, pure_eq_ok] at h
    obtain ⟨bs, hbs, rest, -, rfl⟩ := h
    obtain rfl : [] = wires' := Except.ok.inj h'
    have hlen := congrArg List.length heq
    simp only [List.flatten_nil, List.length_nil, List.flatten_cons, List.length_append,
      outpointBytes_length hbs] at hlen
    omega
  | i :: is, i' :: is', wires, wires', h, h', heq => by
    simp only [List.mapM_cons, bind_eq_ok, pure_eq_ok] at h h'
    obtain ⟨bs, hbs, rest, hrest, rfl⟩ := h
    obtain ⟨bs', hbs', rest', hrest', rfl⟩ := h'
    rw [List.flatten_cons, List.flatten_cons] at heq
    obtain ⟨rfl, hflat⟩ := List.append_inj heq
      (by rw [outpointBytes_length hbs, outpointBytes_length hbs'])
    rw [List.map_cons, List.map_cons, outpoint_eq_of_bytes hbs hbs',
      outpoints_eq_of_flatten hrest hrest' hflat]

theorem sequences_eq_of_flatMap : ∀ {is is' : List TxIn},
    is.flatMap (fun i => u32le i.sequence) = is'.flatMap (fun i => u32le i.sequence) →
    is.map (·.sequence) = is'.map (·.sequence)
  | [], [], _ => rfl
  | [], i' :: is', h => by
    have hlen := congrArg List.length h
    simp only [List.flatMap_nil, List.length_nil, List.flatMap_cons, List.length_append,
      u32le_length] at hlen
    omega
  | i :: is, [], h => by
    have hlen := congrArg List.length h
    simp only [List.flatMap_nil, List.length_nil, List.flatMap_cons, List.length_append,
      u32le_length] at hlen
    omega
  | i :: is, i' :: is', h => by
    rw [List.flatMap_cons, List.flatMap_cons] at h
    obtain ⟨hseq, hrest⟩ := List.append_inj h (by rw [u32le_length, u32le_length])
    rw [List.map_cons, List.map_cons, u32le_inj hseq, sequences_eq_of_flatMap hrest]

theorem printSized_inj {a b r s : Bytes} (ha : a.length < 2 ^ 64) (hb : b.length < 2 ^ 64)
    (h : printSized a ++ r = printSized b ++ s) : a = b ∧ r = s := by
  have hread : readSized (printSized a ++ r) = .ok (a, r) := (readSized_inverts _ _ _).2 ⟨ha, rfl⟩
  have hread' : readSized (printSized b ++ s) = .ok (b, s) := (readSized_inverts _ _ _).2 ⟨hb, rfl⟩
  rw [h, hread', Except.ok.injEq, Prod.mk.injEq] at hread
  exact ⟨hread.1.symm, hread.2.symm⟩

theorem outputs_eq_of_flatMap : ∀ {os os' : List TxOut}, (∀ o ∈ os, o.Ok) → (∀ o ∈ os', o.Ok) →
    os.flatMap printTxOut = os'.flatMap printTxOut → os = os'
  | [], [], _, _, _ => rfl
  | [], o' :: os', _, _, h => by
    have hlen := congrArg List.length h
    have := printTxOut_length o'
    simp only [List.flatMap_nil, List.length_nil, List.flatMap_cons, List.length_append] at hlen
    omega
  | o :: os, [], _, _, h => by
    have hlen := congrArg List.length h
    have := printTxOut_length o
    simp only [List.flatMap_nil, List.length_nil, List.flatMap_cons, List.length_append] at hlen
    omega
  | o :: os, o' :: os', hok, hok', h => by
    rw [List.forall_mem_cons] at hok hok'
    have hread : readTxOut (printTxOut o ++ os.flatMap printTxOut)
      = .ok (o, os.flatMap printTxOut) :=
      (readTxOut_inverts _ _ _).2 ⟨hok.1, rfl⟩
    have hread' : readTxOut (printTxOut o' ++ os'.flatMap printTxOut)
        = .ok (o', os'.flatMap printTxOut) := (readTxOut_inverts _ _ _).2 ⟨hok'.1, rfl⟩
    rw [List.flatMap_cons, List.flatMap_cons] at h
    rw [h, hread', Except.ok.injEq, Prod.mk.injEq] at hread
    rw [hread.1, outputs_eq_of_flatMap hok.2 hok'.2 hread.2.symm]

theorem bip143Preimage_eq_ok
    (h : bip143Preimage P tx idx scriptCode value sighashAllForkid = .ok pre) :
    ∃ i prevouts outpoint, tx.inputs[idx]? = some i ∧ contractCallPrevouts tx = .ok prevouts
      ∧ outpointBytes i = .ok outpoint
      ∧ pre = u32le tx.version ++ ((sha256d P prevouts).1
        ++ ((sha256d P (tx.inputs.flatMap fun i => u32le i.sequence)).1 ++ (outpoint
        ++ (printSized scriptCode ++ (u64le value ++ (u32le i.sequence
        ++ ((sha256d P (tx.outputs.flatMap printTxOut)).1 ++ (u32le tx.locktime
        ++ leBytes 4 sighashAllForkid.toNat)))))))) := by
  unfold bip143Preimage at h
  cases hi : tx.inputs[idx]? with
  | none => simp [hi] at h
  | some i =>
    simp only [hi, bind_eq_ok, pure_eq_ok] at h
    obtain ⟨wires, hwires, outpoint, hout, rfl⟩ := h
    refine ⟨i, wires.flatten, outpoint, rfl, contractCallPrevouts_eq_ok.2 ⟨wires, hwires, rfl⟩,
      hout, ?_⟩
    simp only [List.append_assoc]

theorem contractCallPrevouts_of_preimage
    (h : bip143Preimage P tx idx scriptCode value sighashAllForkid = .ok pre) :
    ∃ prevouts, contractCallPrevouts tx = .ok prevouts
      ∧ (pre.drop 4).take 32 = (sha256d P prevouts).1 := by
  obtain ⟨i, prevouts, outpoint, -, hprev, -, rfl⟩ := bip143Preimage_eq_ok h
  refine ⟨prevouts, hprev, ?_⟩
  rw [List.drop_left' (u32le_length _), List.take_left' (sha256d P prevouts).2]

/-- Equal preimages are of the same input, script code and value in transactions that agree on all
but what unlocks them. -/
structure SameSigned (tx tx' : Tx) (idx idx' : ℕ) (scriptCode scriptCode' : Bytes)
    (value value' : UInt64) : Prop where
  version : tx.version = tx'.version
  locktime : tx.locktime = tx'.locktime
  outpoints : tx.inputs.map TxIn.outpoint = tx'.inputs.map TxIn.outpoint
  sequences : tx.inputs.map (·.sequence) = tx'.inputs.map (·.sequence)
  outputs : tx.outputs = tx'.outputs
  signed : (tx.inputs[idx]?).map TxIn.outpoint = (tx'.inputs[idx']?).map TxIn.outpoint
  code : scriptCode = scriptCode'
  amount : value = value'

theorem sameSigned_of_preimage (hinj : Set.InjOn (sha256d P) (hashedTexts tx ∪ hashedTexts tx'))
    (hok : ∀ o ∈ tx.outputs, o.Ok) (hok' : ∀ o ∈ tx'.outputs, o.Ok)
    (hcode : scriptCode.length < 2 ^ 64) (hcode' : scriptCode'.length < 2 ^ 64)
    (h : bip143Preimage P tx idx scriptCode value sighashAllForkid = .ok pre)
    (h' : bip143Preimage P tx' idx' scriptCode' value' sighashAllForkid = .ok pre) :
    SameSigned tx tx' idx idx' scriptCode scriptCode' value value' := by
  obtain ⟨i, prevouts, outpoint, hi, hprev, hout, rfl⟩ := bip143Preimage_eq_ok h
  obtain ⟨i', prevouts', outpoint', hi', hprev', hout', heq⟩ := bip143Preimage_eq_ok h'
  have hhash : ∀ {a b : Bytes}, a ∈ hashedTexts tx → b ∈ hashedTexts tx' →
      (sha256d P a).1 = (sha256d P b).1 → a = b := fun ha hb he =>
    hinj (Set.mem_union_left _ ha) (Set.mem_union_right _ hb) (Subtype.ext he)
  have hlen : ∀ a b : Bytes, (sha256d P a).1.length = (sha256d P b).1.length := fun a b => by
    rw [(sha256d P a).2, (sha256d P b).2]
  have hlen4 : ∀ v w : UInt32, (u32le v).length = (u32le w).length := fun v w => by
    rw [u32le_length, u32le_length]
  obtain ⟨hversion, heq⟩ := List.append_inj heq (hlen4 _ _)
  obtain ⟨hprevouts, heq⟩ := List.append_inj heq (hlen _ _)
  obtain ⟨hseqs, heq⟩ := List.append_inj heq (hlen _ _)
  obtain ⟨hbytes, heq⟩ := List.append_inj heq
    (by rw [outpointBytes_length hout, outpointBytes_length hout'])
  rw [hbytes] at hout
  obtain ⟨hscript, heq⟩ := printSized_inj hcode hcode' heq
  obtain ⟨hvalue, heq⟩ := List.append_inj heq (by rw [u64le_length, u64le_length])
  obtain ⟨-, heq⟩ := List.append_inj heq (hlen4 _ _)
  obtain ⟨houtputs, heq⟩ := List.append_inj heq (hlen _ _)
  obtain ⟨hlocktime, -⟩ := List.append_inj heq (hlen4 _ _)
  obtain rfl : prevouts = prevouts' := hhash (.inl hprev) (.inl hprev') hprevouts
  obtain ⟨wires, hwires, hflat⟩ := contractCallPrevouts_eq_ok.1 hprev
  obtain ⟨wires', hwires', hflat'⟩ := contractCallPrevouts_eq_ok.1 hprev'
  exact {
    version := u32le_inj hversion
    locktime := u32le_inj hlocktime
    outpoints := outpoints_eq_of_flatten hwires hwires' (hflat.symm.trans hflat')
    sequences := sequences_eq_of_flatMap (hhash (.inr (.inl rfl)) (.inr (.inl rfl)) hseqs)
    outputs := outputs_eq_of_flatMap hok hok' (hhash (.inr (.inr rfl)) (.inr (.inr rfl)) houtputs)
    signed := by rw [hi, hi', Option.map_some, Option.map_some, outpoint_eq_of_bytes hout hout']
    code := hscript
    amount := u64le_inj hvalue }

/-- Preimages do not depend on unlocking scripts, so that signing may go in any order and no step
spoils another; their first hash is that of the prevouts the covenant is given; and they commit to
what is signed. -/
theorem bip143_commits (P : Prims) :
    (∀ (tx tx' : Tx), tx.unsigned = tx'.unsigned → ∀ idx scriptCode value flag,
      bip143Preimage P tx idx scriptCode value flag
        = bip143Preimage P tx' idx scriptCode value flag)
    ∧ (∀ (b tx : Tx) (steps steps' : List SignStep), steps.Perm steps' →
      (steps.map SignStep.index).Nodup → SignStep.signAll P b steps = .ok tx →
      SignStep.signAll P b steps' = .ok tx
      ∧ ∀ s ∈ steps, ∃ script, s.scriptSig P tx = .ok script
        ∧ (tx.inputs[s.index]?).map (·.scriptSig) = some script)
    ∧ (∀ (b : Tx) (c : ContractSpend) (funding : List ContractFundingInput),
      (∀ key, contractRevokeSign P b c key funding
        = (SignStep.signAll P b (.revoke c key :: funding.map .funding) >>= txBuilderBuildHex))
      ∧ (∀ args, contractExecuteSign P b c args funding
        = (SignStep.signAll P b (.execute c args :: funding.map .funding) >>= txBuilderBuildHex))
      ∧ ∀ newAgent33 sigs, contractRecoverSign P b c newAgent33 sigs funding
        = (SignStep.signAll P b (.recover c newAgent33 sigs :: funding.map .funding)
          >>= txBuilderBuildHex))
    ∧ (∀ (tx : Tx) (idx : ℕ) (scriptCode : Bytes) (value : UInt64) (pre : Bytes),
      bip143Preimage P tx idx scriptCode value sighashAllForkid = .ok pre →
      ∃ prevouts, contractCallPrevouts tx = .ok prevouts
        ∧ (pre.drop 4).take 32 = (sha256d P prevouts).1)
    ∧ ∀ (tx tx' : Tx) (idx idx' : ℕ) (scriptCode scriptCode' : Bytes) (value value' : UInt64)
        (pre : Bytes), Set.InjOn (sha256d P) (hashedTexts tx ∪ hashedTexts tx') →
      (∀ o ∈ tx.outputs, o.Ok) → (∀ o ∈ tx'.outputs, o.Ok) → scriptCode.length < 2 ^ 64 →
      scriptCode'.length < 2 ^ 64 →
      bip143Preimage P tx idx scriptCode value sighashAllForkid = .ok pre →
      bip143Preimage P tx' idx' scriptCode' value' sighashAllForkid = .ok pre →
      SameSigned tx tx' idx idx' scriptCode scriptCode' value value' := by
  refine ⟨fun tx tx' h idx scriptCode value flag => ?_, fun b tx steps steps' hperm hn hsign => ?_,
    fun b c funding => ?_,
    fun tx idx scriptCode value pre h => contractCallPrevouts_of_preimage h, ?_⟩
  · rw [← bip143Preimage_unsigned, h, bip143Preimage_unsigned]
  · exact ⟨signAll_perm hperm hn hsign, signAll_scripts hn hsign⟩
  · refine ⟨fun key => ?_, fun args => ?_, fun newAgent33 sigs => ?_⟩
    · exact finishCall_eq (s := .revoke c key) rfl funding
    · exact finishCall_eq (s := .execute c args) rfl funding
    · exact finishCall_eq (s := .recover c newAgent33 sigs) rfl funding
  · intro tx tx' idx idx' scriptCode scriptCode' value value' pre hinj hok hok' hcode hcode' h h'
    exact sameSigned_of_preimage hinj hok hok' hcode hcode' h h'

/-- A transaction in two spellings, of which one is signed. -/
def spelledTx (digit : UInt8) (script : Bytes) : Tx :=
  ⟨1, [⟨List.replicate 64 digit, 0, script, 5⟩], [⟨1000, [0x51]⟩], 0⟩

/-- The three texts hashed, the same in both spellings. -/
def spelledTexts : List Bytes :=
  [List.replicate 32 170 ++ [0, 0, 0, 0], [5, 0, 0, 0], [232, 3, 0, 0, 0, 0, 0, 0, 1, 81]]

theorem hashedTexts_spelledTx {digit : UInt8} {script bs : Bytes}
    (hprev : contractCallPrevouts (spelledTx digit [])
      = .ok (List.replicate 32 170 ++ [0, 0, 0, 0]))
    (h : bs ∈ hashedTexts (spelledTx digit script)) : bs ∈ spelledTexts := by
  rcases h with h | rfl | rfl
  · have heq : contractCallPrevouts (spelledTx digit script)
        = contractCallPrevouts (spelledTx digit []) := by
      rw [← contractCallPrevouts_unsigned, ← contractCallPrevouts_unsigned (spelledTx digit [])]
      rfl
    rw [heq, hprev, Except.ok.injEq] at h
    simp [← h, spelledTexts]
  · have hseq : u32le 5 = [5, 0, 0, 0] := by decide
    simp [spelledTx, hseq, spelledTexts]
  · have hout : printTxOut ⟨1000, [0x51]⟩ = [232, 3, 0, 0, 0, 0, 0, 0, 1, 81] := by decide
    simp [spelledTx, hout, spelledTexts]

theorem bip143_commits_spelled :
    ∃ pre, bip143Preimage codePrims (spelledTx 97 []) 0 [0x51] 7 sighashAllForkid = .ok pre
      ∧ SameSigned (spelledTx 97 []) (spelledTx 65 [1, 2]) 0 0 [0x51] [0x51] 7 7 := by
  obtain ⟨-, -, -, -, hcommit⟩ := bip143_commits codePrims
  have hrun : (∃ pre,
        bip143Preimage codePrims (spelledTx 97 []) 0 [0x51] 7 sighashAllForkid = .ok pre
        ∧ bip143Preimage codePrims (spelledTx 65 [1, 2]) 0 [0x51] 7 sighashAllForkid = .ok pre)
      ∧ (∀ digit ∈ [97, 65], contractCallPrevouts (spelledTx digit [])
        = .ok (List.replicate 32 170 ++ [0, 0, 0, 0]))
      ∧ ∀ a ∈ spelledTexts, ∀ b ∈ spelledTexts,
        sha256d codePrims a = sha256d codePrims b → a = b := by
    decide +kernel
  obtain ⟨⟨pre, hpre, hpre'⟩, hprev, hinj⟩ := hrun
  have hsub : hashedTexts (spelledTx 97 []) ∪ hashedTexts (spelledTx 65 [1, 2])
      ⊆ {bs | bs ∈ spelledTexts} := by
    rintro bs (h | h)
    · exact hashedTexts_spelledTx (hprev 97 (by decide)) h
    · exact hashedTexts_spelledTx (hprev 65 (by decide)) h
  have hok : ∀ digit script, ∀ o ∈ (spelledTx digit script).outputs, o.Ok := by
    simp [spelledTx, TxOut.Ok]
  exact ⟨pre, hpre, hcommit _ _ 0 0 [0x51] [0x51] 7 7 pre
    (fun a ha b hb he => hinj a (hsub ha) b (hsub hb) he)
    (hok _ _) (hok _ _) (by decide) (by decide)
    hpre hpre'⟩

end Committed

end BonsaiChain
