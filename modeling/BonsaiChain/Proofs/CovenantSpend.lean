import BonsaiChain.CovenantSpend
import BonsaiChain.Lib.Delimited
import BonsaiChain.Lib.Paths
import BonsaiChain.Lib.Runs
import BonsaiChain.Proofs.AgentTea
import BonsaiChain.Proofs.Num2binWidth
import BonsaiChain.Proofs.Sighash
import BonsaiChain.Proofs.TeaMethod

/-!
# What an accepted spend puts on chain

A script carries one code part and one list of state values. Where the hash tells the outputs of the
transaction from the byte string a method requires, the first output is the one the byte string
starts with.
-/

namespace BonsaiChain

open Lib

section Pushes

theorem delimits_pushData : Delimits pushData {data | data.length < 2 ^ 32} := by
  intro a ha b hb r s heq
  have h : readPush (pushData a ++ r) = _ := readPush_pushData ha
  rw [heq, readPush_pushData hb, Except.ok.injEq, Prod.mk.injEq] at h
  exact ⟨h.1.symm, h.2.symm⟩

/-- The bytes a state integer pushes. -/
def stateIntBytes (n : ℤ) : Bytes := if n = 0 then [0x00] else int2bytestringMinimal n

theorem stateIntPush_eq (n : ℤ) : stateIntPush n = pushData (stateIntBytes n) := by
  unfold stateIntPush stateIntBytes
  split_ifs <;> rfl

theorem smValue_stateIntBytes (n : ℤ) : smValue (stateIntBytes n) = n := by
  unfold stateIntBytes
  split_ifs with h
  · rw [h]
    rfl
  · exact (int2bytestringMinimal_spec n).1

theorem length_le_pushData (data : Bytes) : data.length ≤ (pushData data).length := by
  unfold pushData
  split_ifs <;> simp [*] <;> omega

theorem delimits_stateIntPush : Delimits stateIntPush {n | (stateIntPush n).length < 2 ^ 32} := by
  intro a ha b hb r s heq
  have hlt : ∀ n, (stateIntPush n).length < 2 ^ 32 → (stateIntBytes n).length < 2 ^ 32 := by
    intro n hn
    rw [stateIntPush_eq] at hn
    exact (length_le_pushData _).trans_lt hn
  rw [stateIntPush_eq, stateIntPush_eq] at heq
  obtain ⟨hbytes, hrest⟩ := delimits_pushData _ (hlt a ha) _ (hlt b hb) _ _ heq
  refine ⟨?_, hrest⟩
  rw [← smValue_stateIntBytes a, hbytes, smValue_stateIntBytes]

/-- A state value of a given type is told from what follows it. -/
theorem delimits_scalarPush {t : ScryptType} (harray : t ≠ .fixedArray) (hstruct : t ≠ .struct) :
    Delimits scalarPush {v | v.tag = t ∧ (scalarPush v).length < 2 ^ 32} := by
  rintro a ⟨rfl, ha⟩ b ⟨htag, hb⟩ r s heq
  have hbytes : ∀ {x y : Bytes}, (pushData x).length < 2 ^ 32 → (pushData y).length < 2 ^ 32 →
      pushData x ++ r = pushData y ++ s → x = y ∧ r = s := fun hx hy =>
    delimits_pushData _ ((length_le_pushData _).trans_lt hx) _ ((length_le_pushData _).trans_lt hy)
      _ _
  cases a <;> cases b <;> simp only [ScryptArg.tag, reduceCtorEq] at htag
  case int.int m n =>
    obtain ⟨rfl, hrest⟩ := delimits_stateIntPush m ha n hb _ _ heq
    exact ⟨rfl, hrest⟩
  case rabinPubkey.rabinPubkey m n =>
    obtain ⟨rfl, hrest⟩ := delimits_stateIntPush m ha n hb _ _ heq
    exact ⟨rfl, hrest⟩
  case bool.bool p q => cases p <;> cases q <;> simp_all [scalarPush]
  case fixedArray.fixedArray => exact absurd rfl harray
  case struct.struct => exact absurd rfl hstruct
  all_goals
    obtain ⟨rfl, hrest⟩ := hbytes ha hb heq
    exact ⟨rfl, hrest⟩

/-- No nested value, which no state section has. -/
def ScryptArg.Scalar (v : ScryptArg) : Prop := v.tag ≠ .fixedArray ∧ v.tag ≠ .struct

instance (v : ScryptArg) : Decidable v.Scalar := inferInstanceAs (Decidable (_ ∧ _))

theorem values_eq_of_pushes : ∀ {vs ws : List ScryptArg},
    vs.map ScryptArg.tag = ws.map ScryptArg.tag →
    (∀ v ∈ vs, v.Scalar) → (vs.flatMap scalarPush).length < 2 ^ 32 →
      vs.flatMap scalarPush = ws.flatMap scalarPush → vs = ws
  | [], [], _, _, _, _ => rfl
  | [], _ :: _, h, _, _, _ => nomatch h
  | _ :: _, [], h, _, _, _ => nomatch h
  | v :: vs, w :: ws, htags, hscalar, hlen, heq => by
    rw [List.map_cons, List.map_cons, List.cons.injEq] at htags
    rw [List.forall_mem_cons] at hscalar
    have hlen' := hlen
    rw [heq] at hlen'
    rw [List.flatMap_cons, List.length_append] at hlen hlen'
    rw [List.flatMap_cons, List.flatMap_cons] at heq
    obtain ⟨rfl, hrest⟩ := delimits_scalarPush hscalar.1.1 hscalar.1.2 v ⟨rfl, by omega⟩ w
      ⟨htags.1.symm, by omega⟩ _ _ heq
    rw [values_eq_of_pushes htags.2 hscalar.2 (by omega) hrest]

end Pushes

namespace Covenant

section StateScripts

variable {code code' : Bytes} {props props' : List ScryptParam} {vs ws constructed : List ScryptArg}
  {script : Bytes}

/-- A section gives its length at the end, so a script has one code part and one section. -/
theorem stateSection_unique {flag flag' : UInt8} {pushes pushes' : Bytes}
    (hlt : pushes.length + 1 < 2 ^ 31) (hlt' : pushes'.length + 1 < 2 ^ 31)
    (heq : code ++ [0x6a] ++ stateSection flag pushes
      = code' ++ [0x6a] ++ stateSection flag' pushes') :
    code = code' ∧ flag = flag' ∧ pushes = pushes' := by
  have hassoc : ∀ (a : Bytes) (f : UInt8) (b : Bytes), a ++ [0x6a] ++ stateSection f b
      = (a ++ [0x6a] ++ f :: b) ++ (leBytes 4 (b.length + 1) ++ [0x00]) := by
    simp [stateSection]
  rw [hassoc, hassoc] at heq
  obtain ⟨hfront, htrailer⟩ := List.append_inj' heq (by simp)
  have hsize := leBytes_inj (by omega) (by omega) (List.append_inj' htrailer rfl).1
  obtain ⟨hcode, hbody⟩ := List.append_inj' hfront (by simpa using hsize)
  rw [List.cons.injEq] at hbody
  exact ⟨(List.append_inj' hcode rfl).1, hbody⟩

theorem stateSection_length (flag : UInt8) (pushes : Bytes) :
    (stateSection flag pushes).length = pushes.length + 6 := by
  simp [stateSection]

theorem CarriesState.eq_pushes (h : CarriesState code props vs script) :
    (vs.flatMap scalarPush).length + 1 < 2 ^ 31
      ∧ script = code ++ [0x6a] ++ stateSection 0 (vs.flatMap scalarPush) := by
  obtain ⟨state, hstate, rfl⟩ := h
  obtain ⟨pushes, hpushes, hlt, rfl⟩ := buildState_eq_ok hstate
  obtain rfl := stateValues_eq_ok hpushes
  exact ⟨hlt, rfl⟩

/-- A deployment raises the flag. -/
theorem raisesGenesis_buildState {state : Bytes} (h : buildState props vs true = .ok state) :
    RaisesGenesis code (code ++ [0x6a] ++ state) := by
  obtain ⟨pushes, -, hlt, rfl⟩ := buildState_eq_ok h
  exact ⟨1, pushes, by decide, hlt, rfl⟩

/-- A script carries one code part and one list of values of given types. -/
theorem CarriesState.unique (h : CarriesState code props vs script)
    (h' : CarriesState code' props' ws script) (htags : vs.map ScryptArg.tag = ws.map ScryptArg.tag)
    (hscalar : ∀ v ∈ vs, v.Scalar) : code = code' ∧ vs = ws := by
  obtain ⟨hlt, rfl⟩ := h.eq_pushes
  obtain ⟨hlt', heq⟩ := h'.eq_pushes
  obtain ⟨hcode, -, hpushes⟩ := stateSection_unique hlt hlt' heq
  exact ⟨hcode, values_eq_of_pushes htags hscalar (by omega) hpushes⟩

theorem CarriesState.not_raisesGenesis (h : CarriesState code props vs script) :
    ¬RaisesGenesis code' script := by
  rintro ⟨flag, pushes, hflag, hlt', heq⟩
  obtain ⟨hlt, rfl⟩ := h.eq_pushes
  obtain ⟨-, hzero, -⟩ := stateSection_unique hlt hlt' heq
  exact hflag hzero.symm

/-- A contract runs on one list of values of given types. -/
theorem ReadsState.unique (h : ReadsState code props constructed vs script)
    (h' : ReadsState code props constructed ws script)
    (htags : vs.map ScryptArg.tag = ws.map ScryptArg.tag) (hscalar : ∀ v ∈ vs, v.Scalar) :
    vs = ws := by
  rcases h with h | ⟨rfl, h⟩ <;> rcases h' with h' | ⟨rfl, h'⟩
  · exact (h.unique h' htags hscalar).2
  · exact absurd h' h.not_raisesGenesis
  · exact absurd h h'.not_raisesGenesis
  · rfl

theorem CarriesState.length_lt (h : CarriesState code props vs script)
    (hcode : code.length < 2 ^ 32) : script.length < 2 ^ 64 := by
  obtain ⟨hlt, rfl⟩ := h.eq_pushes
  rw [List.length_append, stateSection_length, List.length_append, List.length_singleton]
  omega

end StateScripts

section Outputs

variable {P : Prims} {s : Spend} {ctx : Ctx} {bs : Bytes}

/-- The outputs that change adds. -/
def AreChange (changes : List TxOut) : Prop :=
  ∀ c ∈ changes, c.satoshis ≠ 0 ∧ ∃ address, c.script = buildP2pkhScript address

theorem p2pkh_ok {v : UInt64} {address : Block 20} : TxOut.Ok ⟨v, buildP2pkhScript address⟩ := by
  simp [TxOut.Ok, buildP2pkhScript, address.2]

theorem AreChange.ok {changes : List TxOut} (h : AreChange changes) : ∀ c ∈ changes, c.Ok := by
  rintro ⟨v, script⟩ hc
  obtain ⟨-, address, rfl⟩ := h _ hc
  exact p2pkh_ok

/-- A payment is not a contract. -/
theorem not_readsState_p2pkh {code : Bytes} {props : List ScryptParam}
    {constructed values : List ScryptArg} {address : Block 20} :
    ¬ReadsState code props constructed values (buildP2pkhScript address) := by
  have hlast : ∀ {flag : UInt8} {pushes : Bytes},
      buildP2pkhScript address ≠ code ++ [0x6a] ++ stateSection flag pushes := by
    intro flag pushes heq
    rw [buildP2pkhScript, stateSection, ← List.append_assoc, ← List.append_assoc,
      show ([0x88, 0xac] : Bytes) = [0x88] ++ [0xac] from rfl, ← List.append_assoc] at heq
    exact absurd (List.append_inj' heq rfl).2 (by decide)
  rintro (h | ⟨-, flag, pushes, -, -, heq⟩)
  · exact hlast h.eq_pushes.2
  · exact hlast heq

theorem receiptOutput_ok {hash : Block 32} : TxOut.Ok ⟨0, receiptScript hash⟩ := by
  simp [TxOut.Ok, receiptScript, hash.2]

theorem slashedOutput_ok {v : UInt64} : TxOut.Ok ⟨v, slashedScript⟩ :=
  show slashedScript.length < 2 ^ 64 by decide

theorem uint64_half (v : UInt64) : ((v / 2).toNat : ℤ) = (v.toNat : ℤ).tdiv 2
    ∧ ((v - v / 2).toNat : ℤ) = v.toNat - (v.toNat : ℤ).tdiv 2 := by
  have hhalf : (v / 2).toNat = v.toNat / 2 := UInt64.toNat_div ..
  have hrest : (v - v / 2).toNat = v.toNat - v.toNat / 2 := by
    rw [UInt64.toNat_sub_of_le _ _ (by rw [UInt64.le_iff_toNat_le, hhalf]; omega), hhalf]
  rw [Int.tdiv_eq_ediv_of_nonneg (by omega), hhalf, hrest]
  omega

/-- The two strings that a spend's outputs are compared by. -/
def Spend.hashed (s : Spend) (outputs : Option Bytes) : Set Bytes :=
  {bs | bs = s.tx.outputs.flatMap printTxOut ∨ bs ∈ outputs}

/-- A spend has the outputs that are required of it. -/
theorem Spend.HashesOutputs.eq {outputs : Option Bytes} {os : List TxOut}
    (h : s.HashesOutputs P outputs) (hinj : Set.InjOn (sha256d P) (s.hashed outputs))
    (htx : s.tx.Ok) (houtputs : outputs = some (os.flatMap printTxOut)) (hos : ∀ o ∈ os, o.Ok) :
    s.tx.outputs = os := by
  obtain ⟨bs, hbs, hhash⟩ := h
  have heq := hinj (.inl rfl) (.inr hbs) hhash
  obtain rfl : os.flatMap printTxOut = bs := Option.some.inj (houtputs ▸ hbs)
  exact outputs_eq_of_flatMap htx.outputs hos heq

end Outputs

section InputZero

variable {P : Prims} {s : Spend}

theorem smValue_u32le {v : UInt32} (h : v.toNat < 2 ^ 31) : smValue (u32le v) = v.toNat := by
  have hlt : v.toNat < 256 ^ 3 * 128 := h
  rw [u32le, smValue_leBytes (by omega), if_pos hlt]

/-- The string a spend gives for its outpoints and the one that the transaction has. -/
def Spend.hashedPrevouts (s : Spend) : Set Bytes :=
  {bs | bs = s.prevouts
    ∨ ∃ outpoints ∈ (s.tx.inputs.mapM outpointBytes).toOption, bs = outpoints.flatten}

/-- The spent outpoint is the first one of the transaction, where the index of the output leaves its
sign bit clear. -/
theorem Spend.ChecksInputZero.first {i : TxIn} (h : s.ChecksInputZero P)
    (hinj : Set.InjOn (sha256d P) s.hashedPrevouts) (hi : s.tx.inputs[s.input]? = some i)
    (hvout : i.vout.toNat < 2 ^ 31) :
    ∃ i₀, s.tx.inputs[0]? = some i₀
      ∧ ∃ bs, outpointBytes i₀ = .ok bs ∧ outpointBytes i = .ok bs := by
  obtain ⟨⟨outpoints, houtpoints, hhash⟩, j, hj, outpoint, hout, index, hindex, htake⟩ := h
  obtain rfl : i = j := Option.some.inj (hi.symm.trans hj)
  have hall : s.tx.inputs.mapM outpointBytes = .ok outpoints := toOption_eq_some.mp houtpoints
  have hprev : s.prevouts = outpoints.flatten := hinj (.inl rfl) (.inr ⟨_, houtpoints, rfl⟩) hhash
  have hown : outpointBytes i = .ok outpoint := toOption_eq_some.mp hout
  obtain ⟨be, -, hlen, rfl⟩ := outpointBytes_eq_ok.mp hown
  have hbe : be.reverse.length = 32 := by simp [hlen]
  rw [List.drop_left' hbe, smValue_u32le hvout] at hindex
  rw [num2bin_natCast (by omega) (by omega)] at hindex
  obtain rfl : leBytes 4 i.vout.toNat = index := Option.some.inj hindex
  rw [List.take_left' hbe] at htake
  rcases hin : s.tx.inputs with _ | ⟨i₀, is⟩
  · rw [hin] at hi
    exact nomatch hi
  · rw [hin, List.mapM_cons, bind_eq_ok] at hall
    obtain ⟨bs, hbs, hall⟩ := hall
    simp only [bind_eq_ok, pure_eq_ok] at hall
    obtain ⟨rest, -, rfl⟩ := hall
    rw [hprev, List.flatten_cons, List.take_left' (outpointBytes_length hbs)] at htake
    exact ⟨i₀, rfl, bs, hbs, hown.trans (congrArg Except.ok htake.symm)⟩

end InputZero

section Contracts

variable {σ ι : Type} {C : Contract σ ι} {P : Prims} {a a' : Option (σ × ℤ)} {e : Event σ ι}
  {es : List (Event σ ι)} {o o' : ContractOutput}

/-- A well-formed transaction, and no collision between its outputs and the required ones. -/
structure Contract.Collisionless (C : Contract σ ι) (P : Prims) (e : Event σ ι) : Prop where
  tx : e.spend.tx.Ok
  outputs : Set.InjOn (sha256d P) (e.spend.hashed (C.outputs e))

/-- What makes a contract go from output to output: a script holds one state at most, the bytes a
call hashes are those of the outputs it pins and of change, the first pinned output is what comes
next, and a call that goes on changes the state by `advance` and the deposit by `paid`. -/
structure Contract.Lawful (C : Contract σ ι) (Pins : Event σ ι → List TxOut → Prop)
    (advance : σ → Event σ ι → σ) (paid : Event σ ι → ℤ) : Prop where
  unique : ∀ {this this' : σ} {script : Bytes}, C.Holds this script → C.Holds this' script →
    this = this'
  outputs : ∀ {e : Event σ ι} {bs : Bytes}, C.outputs e = some bs →
    ∃ outs changes, bs = (outs ++ changes).flatMap printTxOut ∧ AreChange changes ∧ Pins e outs
  ok : ∀ {e : Event σ ι} {script : Bytes} {outs : List TxOut}, C.Holds e.this script →
    Pins e outs → ∀ o ∈ outs, o.Ok
  stands : ∀ {e : Event σ ι} {script : Bytes} {outs : List TxOut}, C.Holds e.this script →
    Pins e outs → ∃ out os, outs = out :: os ∧ C.Stands (C.next e) out.satoshis out.script
  next : ∀ {e : Event σ ι} {x : σ × ℤ}, C.next e = some x →
    x = (advance e.this e, (e.spend.value.toNat : ℤ) + paid e)

theorem Contract.Collisionless.of_eq (htx : e.spend.tx.Ok)
    (houtputs : C.outputs e = some (e.spend.tx.outputs.flatMap printTxOut)) :
    C.Collisionless P e := by
  refine ⟨htx, fun bs hbs bs' hbs' _ => ?_⟩
  have heq : ∀ bs ∈ e.spend.hashed (C.outputs e), bs = e.spend.tx.outputs.flatMap printTxOut := by
    rintro bs (rfl | hbs)
    · rfl
    · exact (Option.some.inj (houtputs.symm.trans hbs)).symm
  rw [heq bs hbs, heq bs' hbs']

/-- A spend of the output alone, without change. -/
def spendInto (o : ContractOutput) (outs : List TxOut) (locktime : UInt32) : Spend where
  tx := ⟨1, [⟨o.txid, o.vout, [], 0⟩], outs, locktime⟩
  input := 0
  value := o.value
  changeAmount := 0
  changeAddress := Block.fill 20 0
  prevouts := (outpointBytes ⟨o.txid, o.vout, [], 0⟩).toOption.getD []

section SpendInto

variable {outs : List TxOut} {locktime : UInt32}

theorem txBytes_spendInto_length (htxid : IsTxid o.txid)
    (hlen : (outs.flatMap printTxOut).length < 2 ^ 63) :
    (txBytes (spendInto o outs locktime).tx).length < 2 ^ 64 := by
  obtain ⟨bs, hbs, htxid⟩ := htxid
  have hone : (writeVarint 1).length = 1 := rfl
  have hzero : (writeVarint 0).length = 1 := rfl
  have houts : (writeVarint outs.length).length ≤ 9 := writeVarint_length_le _
  simp only [txBytes, spendInto, List.length_append, List.length_singleton, List.flatMap_singleton,
    txInBytes, htxid, hexDecode_hexEncode, Except.toOption, Option.getD_some, List.length_reverse,
    hbs, u32le_length, printSized, List.length_nil]
  omega

end SpendInto

/-- Output 0 of that spend. -/
def successor (P : Prims) (o : ContractOutput) (out : TxOut) (outs : List TxOut)
    (locktime : UInt32) : ContractOutput :=
  ⟨hexEncode (sha256d P (txBytes (spendInto o (out :: outs) locktime).tx)).1.reverse, 0,
    out.satoshis, out.script⟩

/-- A call in a transaction of its own, with the outputs that it requires. -/
def callAlone (P : Prims) (outs : Event σ ι → TxOut × List TxOut) (o : ContractOutput) (this : σ)
    (call : ι) (locktime : UInt32) : Event σ ι × ContractOutput :=
  let outs := outs ⟨this, spendInto o [] locktime, call⟩
  (⟨this, spendInto o (outs.1 :: outs.2) locktime, call⟩, successor P o outs.1 outs.2 locktime)

theorem txId_spendInto {out : TxOut} {outs : List TxOut} {locktime : UInt32} (htxid : IsTxid o.txid)
    (hlen : ((out :: outs).flatMap printTxOut).length < 2 ^ 63) :
    txId (fun bs => (sha256d P bs).1) (spendInto o (out :: outs) locktime).tx
      = .ok (successor P o out outs locktime).txid := by
  have hin : ∀ i ∈ (spendInto o (out :: outs) locktime).tx.inputs, IsTxid i.prevTxidDisplay :=
    List.forall_mem_singleton.mpr htxid
  simp only [txId, bind_eq_ok, pure_eq_ok]
  exact ⟨_, (txSerialize_eq_ok hin).mpr ⟨rfl, txBytes_spendInto_length htxid hlen⟩, rfl⟩

/-- A transaction with the required outputs is accepted, and the contract goes on in its first
output. -/
theorem Contract.step_spendInto {out : TxOut} {outs : List TxOut} {locktime : UInt32}
    (hspend : e.spend = spendInto o (out :: outs) locktime) (hholds : C.Holds e.this o.script)
    (hguards : C.Guards e) (houtputs : C.outputs e = some ((out :: outs).flatMap printTxOut))
    (htxid : IsTxid o.txid) (hlen : ((out :: outs).flatMap printTxOut).length < 2 ^ 63) :
    C.Step P o e (successor P o out outs locktime) ∧ C.Collisionless P e := by
  have hspends : e.spend.Spends o := by
    rw [hspend]
    exact ⟨⟨_, rfl, rfl, rfl⟩, rfl⟩
  have hout : e.spend.tx.outputs = out :: outs := by rw [hspend]; rfl
  refine ⟨⟨hholds, hspends, hguards, ⟨_, houtputs, by rw [hout]⟩, ?_, rfl, by rw [hout]; rfl⟩,
    .of_eq ?_ (hout ▸ houtputs)⟩
  · rw [hspend]
    exact txId_spendInto htxid hlen
  · have hin : ∀ i ∈ e.spend.tx.inputs, IsTxid i.prevTxidDisplay := by
      rw [hspend]
      exact List.forall_mem_singleton.mpr htxid
    exact ok_of_txBytes_length hin (hspend ▸ txBytes_spendInto_length htxid hlen)

/-- A chain of accepted spends behind an output that holds the contract. -/
structure Contract.Life (C : Contract σ ι) (P : Prims) (this : σ) (o : ContractOutput)
    (es : List (Event σ ι)) (o' : ContractOutput) : Prop where
  deployed : C.Holds this o.script
  path : Path (C.Step P) o es o'
  collisionless : ∀ e ∈ es, C.Collisionless P e

namespace Contract

variable {Pins : Event σ ι → List TxOut → Prop} {advance : σ → Event σ ι → σ}
  {paid : Event σ ι → ℤ} {this : σ} {deposit : ℤ} {pre post : List (Event σ ι)}

/-- A spend pays the outputs that its call pins, and change. -/
theorem Step.pins (hC : C.Lawful Pins advance paid) (he : C.Collisionless P e)
    (h : C.Step P o e o') :
    ∃ outs changes, e.spend.tx.outputs = outs ++ changes ∧ AreChange changes ∧ Pins e outs := by
  obtain ⟨bs, hbs, -⟩ := h.outputs
  obtain ⟨outs, changes, rfl, hchanges, hpins⟩ := hC.outputs hbs
  refine ⟨outs, changes, h.outputs.eq he.outputs he.tx hbs ?_, hchanges, hpins⟩
  rw [List.forall_mem_append]
  exact ⟨hC.ok h.holds hpins, hchanges.ok⟩

/-- A contract on chain makes the moves of the contract by itself. -/
theorem Step.moves (hC : C.Lawful Pins advance paid) (he : C.Collisionless P e)
    (h : C.Step P o e o') (ha : C.Stands a o.value o.script) :
    ∃ a', C.Moves a e a' ∧ C.Stands a' o'.value o'.script := by
  rcases a with _ | ⟨this, deposit⟩
  · exact absurd h.holds (ha e.this)
  obtain ⟨hholds, hdeposit⟩ := ha
  obtain rfl := hC.unique hholds h.holds
  obtain ⟨outs, changes, houts, -, hpins⟩ := h.pins hC he
  obtain ⟨out, os, rfl, hstands⟩ := hC.stands hholds hpins
  obtain ⟨bs, hbs, -⟩ := h.outputs
  obtain ⟨-, -, ho'⟩ := h.continues
  rw [houts, List.cons_append, List.getElem?_cons_zero, Option.some.injEq] at ho'
  subst ho'
  refine ⟨C.next e, ⟨?_, h.guards, Option.isSome_of_mem hbs, rfl⟩, hstands⟩
  rw [← hdeposit, h.spends.2]

theorem Life.moves (hC : C.Lawful Pins advance paid) (h : C.Life P this o es o') :
    ∃ a, Path C.Moves (some (this, (o.value.toNat : ℤ))) es a ∧ C.Stands a o'.value o'.script :=
  h.path.simulates (fun o a => C.Stands a o.value o.script)
    (fun _ _ _ _ hx he hstep => hstep.moves hC he hx) h.collisionless
    (show C.Stands (some (this, (o.value.toNat : ℤ))) _ _ from ⟨h.deployed, rfl⟩)

theorem Life.init (h : C.Life P this o (es ++ [e]) o') :
    ∃ o₁, C.Life P this o es o₁ ∧ C.Step P o₁ e o' := by
  obtain ⟨o₁, hpath, hstep⟩ := Path.snoc_iff.mp h.path
  exact ⟨o₁, ⟨h.deployed, hpath, fun e he => h.collisionless e (List.mem_append_left _ he)⟩, hstep⟩

theorem Life.before (h : C.Life P this o (pre ++ e :: post) o') :
    ∃ o₁, C.Life P this o pre o₁ := by
  obtain ⟨o₁, _, hpath, -, -⟩ := h.path.split
  exact ⟨o₁, h.deployed, hpath, fun e he => h.collisionless e (List.mem_append_left _ he)⟩

/-- The state and deposit of a contract are what its calls add up to. -/
theorem Moves.adds_up (hC : C.Lawful Pins advance paid)
    (h : Path C.Moves (some (this, deposit)) es a) :
    ∀ x ∈ a, x = (run advance this es, deposit + (es.map paid).sum) := by
  induction h with
  | nil => simp
  | @snoc es e t u h he ih =>
    intro x hx
    obtain ⟨hthis, hvalue⟩ := Prod.mk.inj (ih _ he.live)
    have := hC.next (he.next ▸ hx : C.next e = some x)
    rw [this, hthis, hvalue, run_snoc, List.map_append, List.sum_append]
    simp [add_assoc]

/-- What a call reads, checks and pays, at its place in the life of a contract. -/
theorem Life.call (hC : C.Lawful Pins advance paid)
    (h : C.Life P this o (pre ++ e :: post) o') :
    C.Guards e ∧ e.this = run advance this pre
      ∧ (e.spend.value.toNat : ℤ) = o.value.toNat + (pre.map paid).sum
      ∧ ∃ outs changes, e.spend.tx.outputs = outs ++ changes ∧ AreChange changes
        ∧ Pins e outs := by
  obtain ⟨a, hpath, -⟩ := h.moves hC
  obtain ⟨x, y, hpre, he, -⟩ := hpath.split
  obtain ⟨u, v, -, hstep, -⟩ := h.path.split
  obtain ⟨hthis, hvalue⟩ := Prod.mk.inj (Moves.adds_up hC hpre _ he.live)
  exact ⟨he.guards, hthis, hvalue, hstep.pins hC (h.collisionless e (by simp))⟩

/-- The last output of a contract that has not ended. -/
theorem Life.last (hC : C.Lawful Pins advance paid) (h : C.Life P this o es o')
    (hlive : ∀ e ∈ es, (C.next e).isSome) :
    C.Holds (run advance this es) o'.script
      ∧ (o'.value.toNat : ℤ) = o.value.toNat + (es.map paid).sum := by
  obtain ⟨a, hpath, hstands⟩ := h.moves hC
  have hsome : a.isSome := by
    rcases List.eq_nil_or_concat' es with rfl | ⟨es, e, rfl⟩
    · rw [hpath.eq_of_nil, Option.isSome_some]
    · obtain ⟨x, -, he⟩ := Path.snoc_iff.mp hpath
      rw [he.next]
      exact hlive e (by simp)
  obtain ⟨x, rfl⟩ := Option.isSome_iff_exists.mp hsome
  rw [Moves.adds_up hC hpath x rfl] at hstands
  exact hstands

theorem Life.isTxid (h : C.Life P this o es o') (ho : IsTxid o.txid) : IsTxid o'.txid := by
  obtain ⟨-, hpath, -⟩ := h
  cases hpath with
  | nil => exact ho
  | snoc hpath he =>
    have hid := he.continues.1
    simp only [txId, bind_eq_ok, pure_eq_ok] at hid
    obtain ⟨raw, -, hid⟩ := hid
    exact ⟨_, by rw [List.length_reverse, (sha256d P _).2], hid.symm⟩

/-- A contract that has not ended goes on with a call on its last output. -/
theorem Life.callAlone (hC : C.Lawful Pins advance paid) (h : C.Life P this o es o') {call : ι}
    {locktime : UInt32} {outs : Event σ ι → TxOut × List TxOut}
    (hlive : ∀ e ∈ es, (C.next e).isSome) (ho : IsTxid o.txid)
    (hguards : C.Guards (callAlone P outs o' (run advance this es) call locktime).1)
    (houtputs : C.outputs (callAlone P outs o' (run advance this es) call locktime).1
      = some ((callAlone P outs o' (run advance this es) call locktime).1.spend.tx.outputs.flatMap
        printTxOut))
    (hlen : ((callAlone P outs o' (run advance this es) call locktime).1.spend.tx.outputs.flatMap
      printTxOut).length < 2 ^ 63) :
    C.Life P this o (es ++ [(callAlone P outs o' (run advance this es) call locktime).1])
      (callAlone P outs o' (run advance this es) call locktime).2 := by
  obtain ⟨hholds, -⟩ := h.last hC hlive
  obtain ⟨hstep, hsound⟩ := C.step_spendInto rfl hholds hguards houtputs (h.isTxid ho) hlen
  refine ⟨h.deployed, h.path.snoc hstep, ?_⟩
  rw [List.forall_mem_append, List.forall_mem_singleton]
  exact ⟨h.collisionless, hsound⟩

end Contract

end Contracts

end Covenant

end BonsaiChain
