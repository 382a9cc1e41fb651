import BonsaiChain.AttestorTeaSpend
import BonsaiChain.Proofs.BuilderCall
import BonsaiChain.Proofs.RabinAttestor
import BonsaiChain.Proofs.SpendHistory

/-!
# The AttestorTea bond over a whole chain of spends

A bond leaves its script at the end alone: to its operator once the bond has run out, or to the
reporter of an equivocation. That holds of one bond: two bonds with one script are merged by a
transaction that stakes both, and the smaller of them is anybody's change.
-/

namespace BonsaiChain.Covenant.AttestorTea

open Lib

variable {P : Prims} {V : Verifiers} {d : AttestorTea} {bs : Bytes} {e : Event AttestorTea Call}

section Outputs

/-- The outputs a call pins, before the change. -/
def Pins (P : Prims) (e : Event AttestorTea Call) (outs : List TxOut) : Prop :=
  let value := e.spend.value
  match e.call with
  | .slashEquivocation _ _ _ _ _ reporter =>
    outs = [⟨value / 2, buildP2pkhScript (P.hash160 reporter.1)⟩,
      ⟨value - value / 2, slashedScript⟩]
  | .stake addAmount =>
    0 < addAmount ∧ ∃ total : UInt64, (total.toNat : ℤ) = value.toNat + addAmount
      ∧ outs = [⟨total, e.this.script⟩]
  | .withdraw _ =>
    e.this.unbondNotBefore ≤ e.spend.tx.locktime.toNat
      ∧ outs = [⟨value, buildP2pkhScript (P.hash160 e.this.operator)⟩]

theorem Pins.ok {outs : List TxOut} (h : Pins P e outs) (hlen : e.this.script.length < 2 ^ 64) :
    ∀ o ∈ outs, o.Ok := by
  obtain ⟨this, spend, call⟩ := e
  cases call with
  | slashEquivocation =>
    rw [show outs = _ from h, List.forall_mem_cons, List.forall_mem_singleton]
    exact ⟨p2pkh_ok, slashedOutput_ok⟩
  | stake =>
    obtain ⟨-, total, -, rfl⟩ := h
    exact List.forall_mem_singleton.mpr hlen
  | withdraw =>
    obtain ⟨-, rfl⟩ := h
    exact List.forall_mem_singleton.mpr p2pkh_ok

end Outputs

section Lawful

/-- A script that is no payment to a key. -/
structure Bond (d : AttestorTea) : Prop where
  length : d.script.length < 2 ^ 32
  notPayment : isP2pkhOut d.script = false

theorem Bond.ne_p2pkh (h : d.Bond) (address : Block 20) : buildP2pkhScript address ≠ d.script := by
  intro heq
  have hpayment := isP2pkhOut_buildP2pkhScript address
  rw [heq, h.notPayment] at hpayment
  exact nomatch hpayment

/-- The first pinned output is what comes next. -/
theorem Pins.stands {outs : List TxOut} (h : Pins P e outs) (hd : e.this = d) (hbond : d.Bond) :
    ∃ out os, outs = out :: os ∧ (contract P V d).Stands (next e) out.satoshis out.script := by
  obtain ⟨this, spend, call⟩ := e
  cases call with
  | slashEquivocation =>
    exact ⟨_, _, h, fun this' hthis' => hbond.ne_p2pkh _ hthis'.2⟩
  | stake =>
    obtain ⟨-, total, htotal, rfl⟩ := h
    exact ⟨_, _, rfl, ⟨hd, congrArg script hd⟩, htotal⟩
  | withdraw =>
    obtain ⟨-, rfl⟩ := h
    exact ⟨_, _, rfl, fun this' hthis' => hbond.ne_p2pkh _ hthis'.2⟩

end Lawful

section Runs

variable {pre post es : List (Event AttestorTea Call)} {o o' : ContractOutput}

end Runs

section Example

def exampleBond : AttestorTea := ⟨[0x51], List.replicate 33 2, 35, 1800000000⟩

def exampleOutput (b : UInt8) : ContractOutput := ⟨txidOf b, 0, 1000, [0x51]⟩

/-- The outputs of a call of the example. -/
def exampleOutputs (e : Event AttestorTea Call) : TxOut × List TxOut :=
  if e.call.Ends then (⟨e.spend.value, buildP2pkhScript (hash160 e.this.operator)⟩, [])
  else (⟨e.spend.value + (staked e).toNat.toUInt64, e.this.script⟩, [])

def exampleFirst : Event AttestorTea Call × ContractOutput :=
  callAlone codePrims exampleOutputs (exampleOutput 1) exampleBond (.stake 100) 0

def exampleSecond : Event AttestorTea Call × ContractOutput :=
  callAlone codePrims exampleOutputs exampleFirst.2 exampleBond (.stake 50) 0

def exampleThird : Event AttestorTea Call × ContractOutput :=
  callAlone codePrims exampleOutputs exampleSecond.2 exampleBond (.withdraw (List.replicate 33 2))
    1800000000

end Example

section Merge

variable {o₁ o₂ : ContractOutput} {tx : Tx} {txid : CString} {total change : UInt64}
  {address : Block 20}

/-- The stake that raises the bond to a total, in a transaction with change. -/
def stakeUpTo (d : AttestorTea) (o : ContractOutput) (total change : UInt64) (address : Block 20)
    (tx : Tx) (input : ℕ) : Event AttestorTea Call where
  this := d
  spend := ⟨tx, input, o.value, change.toNat, address, []⟩
  call := .stake (total.toNat - o.value.toNat)

theorem outputs_stakeUpTo {o : ContractOutput} {input : ℕ} (htotal : o.value < total)
    (hchange : change ≠ 0) : outputs P (stakeUpTo d o total change address tx input)
      = some ([⟨total, d.script⟩, ⟨change, buildP2pkhScript address⟩].flatMap printTxOut) := by
  have hlt : o.value.toNat < total.toNat := htotal
  have hpos : 0 < change.toNat := Nat.pos_of_ne_zero fun h => hchange (UInt64.toNat_inj.mp h)
  have hadd : (o.value.toNat : ℤ) + (total.toNat - o.value.toNat) = total.toNat := by omega
  have hpay : buildOutput (buildPublicKeyHashScript address) change.toNat
      = some (printTxOut ⟨change, buildP2pkhScript address⟩) := buildOutput_toNat _ change
  have hreq : ((total.toNat : ℤ) - o.value.toNat > 0) := by omega
  have hreq' : ((change.toNat : ℤ) > 0) := by omega
  simp only [outputs, stakeUpTo, stake, Spend.ctx, require, hreq, if_true, hadd, buildOutput_toNat,
    withChange, hreq', buildChangeOutput, hpay, Option.bind_eq_bind, Option.bind_some,
    Option.pure_def]
  simp

theorem step_stakeUpTo {o : ContractOutput} {i : TxIn} {input : ℕ} (hscript : o.script = d.script)
    (hi : tx.inputs[input]? = some i) (htxid : i.prevTxidDisplay = o.txid) (hvout : i.vout = o.vout)
    (htotal : o.value < total) (hchange : change ≠ 0)
    (houts : tx.outputs = [⟨total, d.script⟩, ⟨change, buildP2pkhScript address⟩])
    (hid : txId (fun bs => (sha256d P bs).1) tx = .ok txid) :
    (contract P V d).Step P o (stakeUpTo d o total change address tx input)
      ⟨txid, 0, total, d.script⟩ := by
  have hpays : (stakeUpTo d o total change address tx input).spend.tx.outputs
      = [⟨total, d.script⟩, ⟨change, buildP2pkhScript address⟩] := houts
  refine ⟨⟨rfl, hscript⟩, ⟨⟨i, hi, htxid, hvout⟩, rfl⟩, trivial,
    ⟨_, outputs_stakeUpTo (P := P) htotal hchange, congrArg _ (congrArg _ hpays)⟩, hid, rfl, ?_⟩
  rw [hpays]
  rfl

/-- Two bonds with one script can be spent by one transaction that leaves a bond above the larger of
them and pays the rest to any address. It is accepted whatever signatures are: nobody signs it. -/
theorem bonds_merge (h₁ : o₁.script = d.script) (h₂ : o₂.script = d.script)
    (hin₁ : ∃ i ∈ tx.inputs, i.prevTxidDisplay = o₁.txid ∧ i.vout = o₁.vout)
    (hin₂ : ∃ i ∈ tx.inputs, i.prevTxidDisplay = o₂.txid ∧ i.vout = o₂.vout)
    (htotal₁ : o₁.value < total) (htotal₂ : o₂.value < total) (hchange : change ≠ 0)
    (houts : tx.outputs = [⟨total, d.script⟩, ⟨change, buildP2pkhScript address⟩])
    (hid : txId (fun bs => (sha256d P bs).1) tx = .ok txid) :
    ∃ e₁ e₂, e₁.spend.tx = tx ∧ e₂.spend.tx = tx
      ∧ (contract P V d).Step P o₁ e₁ ⟨txid, 0, total, d.script⟩
      ∧ (contract P V d).Step P o₂ e₂ ⟨txid, 0, total, d.script⟩ := by
  obtain ⟨i₁, hi₁, htxid₁, hvout₁⟩ := hin₁
  obtain ⟨i₂, hi₂, htxid₂, hvout₂⟩ := hin₂
  obtain ⟨k₁, hk₁⟩ := List.getElem?_of_mem hi₁
  obtain ⟨k₂, hk₂⟩ := List.getElem?_of_mem hi₂
  exact ⟨_, _, rfl, rfl, step_stakeUpTo h₁ hk₁ htxid₁ hvout₁ htotal₁ hchange houts hid,
    step_stakeUpTo h₂ hk₂ htxid₂ hvout₂ htotal₂ hchange houts hid⟩

/-- Two bonds of 1000 satoshis, 998 of which are somebody's change. -/
def exampleMerge : Tx where
  version := 1
  inputs := [⟨txidOf 1, 0, [], 0xffffffff⟩, ⟨txidOf 2, 0, [], 0xffffffff⟩]
  outputs := [⟨1001, exampleBond.script⟩, ⟨998, buildP2pkhScript (Block.fill 20 7)⟩]
  locktime := 0

/-- No signature is valid. -/
def refusingVerifiers : Verifiers := ⟨fun _ _ _ => false, fun _ _ _ => false⟩

theorem bonds_merge_anybody : ∃ txid e₁ e₂, e₁.spend.tx = exampleMerge ∧ e₂.spend.tx = exampleMerge
    ∧ (contract codePrims refusingVerifiers exampleBond).Step codePrims (exampleOutput 1) e₁
      ⟨txid, 0, 1001, exampleBond.script⟩
    ∧ (contract codePrims refusingVerifiers exampleBond).Step codePrims (exampleOutput 2) e₂
      ⟨txid, 0, 1001, exampleBond.script⟩ := by
  obtain ⟨txid, hid⟩ := Option.isSome_iff_exists.mp (by decide +kernel :
    (txId (fun bs => (sha256d codePrims bs).1) exampleMerge).toOption.isSome)
  have hin : ∀ b ∈ [1, 2], ∃ i ∈ exampleMerge.inputs, i.prevTxidDisplay = (exampleOutput b).txid
      ∧ i.vout = (exampleOutput b).vout := by decide +kernel
  exact ⟨txid, bonds_merge rfl rfl (hin 1 (by simp)) (hin 2 (by simp)) (by decide) (by decide)
    (by decide) rfl (toOption_eq_some.mp hid)⟩

end Merge

section Builders

variable {c : BonsaiChain.AttestorTea} {utxo : ContractUtxo} {opts : ArpBuilderOpts} {call : Call}
  {tx tx' : Tx} {script : Bytes} {lockTime : ℤ} {txid : CString}

/-- The builder of a call. -/
def Call.build (P : Prims) (c : BonsaiChain.AttestorTea) (utxo : ContractUtxo) (lockTime : ℤ)
    (opts : ArpBuilderOpts) : Call → Except Err Tx
  | .slashEquivocation _ _ _ _ _ reporter =>
    buildArpAttestorSlash P utxo reporter opts txBuilderInit
  | .stake addAmount => buildArpAttestorStake P c utxo addAmount opts txBuilderInit
  | .withdraw _ => buildArpAttestorWithdraw P c utxo lockTime opts txBuilderInit

/-- How many outputs stand before the change output. -/
def Call.pinned : Call → ℕ
  | .slashEquivocation .. => 2
  | _ => 1

/-- What the caller of the builder makes sure of. -/
def Call.Passes (P : Prims) (V : Verifiers) (c : BonsaiChain.AttestorTea) (lockTime : ℤ)
    (spend : Spend) : Call → Prop
  | .slashEquivocation seq digestA sigA digestB sigB _ =>
    attestorTeaCheckEquivocation P.sha256 c seq digestA sigA digestB sigB = .ok true
  | .stake addAmount => 0 < addAmount
  | .withdraw operatorSig =>
    (c.params.unbondNotBefore ≤ lockTime ∧ 0 ≤ lockTime ∧ lockTime < 2 ^ 31)
      ∧ V.checkSig spend operatorSig c.params.operatorPubkey

/-- The spend of a bond by a signed transaction of a builder. -/
def builtSpend (utxo : ContractUtxo) (opts : ArpBuilderOpts) (call : Call) (tx : Tx) : Spend where
  tx := tx
  input := 0
  value := utxo.value
  changeAmount := (changeAmount call.pinned tx).toNat
  changeAddress := opts.request.hash.getD (Block.fill 20 0)
  prevouts := []

/-- A call whose covenant writes the pinned outputs of the builder is accepted. -/
theorem step_of_built {sequence locktime : UInt32} {funding : List FundingUtxo}
    {pinned : List TxOut} {seed : ℤ} {change : UInt64} {first : TxOut}
    (hb : Built P utxo sequence funding pinned opts.request seed locktime tx change)
    (hlen : pinned.length = call.pinned) (hsigned : tx'.unsigned = tx.unsigned)
    (hid : txId (fun bs => (sha256d P bs).1) tx' = .ok txid) (hfirst : pinned[0]? = some first)
    (hguards : (∃ i ∈ tx'.inputs[0]?, i.sequence = sequence) → tx'.locktime = locktime →
      Guards V ⟨ofInstance c script, builtSpend utxo opts call tx', call⟩)
    (hout : tx'.locktime = locktime → outputs P
        ⟨ofInstance c script, builtSpend utxo opts call tx', call⟩
      = withChange (builtSpend utxo opts call tx').ctx (pinned.flatMap printTxOut)) :
    ∃ first, tx'.outputs[0]? = some first
      ∧ (contract P V (ofInstance c script)).Step P
        ⟨hexToLower utxo.txidDisplay, utxo.vout, utxo.value, script⟩
        ⟨ofInstance c script, builtSpend utxo opts call tx', call⟩
        ⟨txid, 0, first.satoshis, first.script⟩ := by
  obtain ⟨version, inputs, outs, lock⟩ := tx'
  obtain rfl := hb.tx_eq
  simp only [Tx.unsigned, Tx.mk.injEq, List.map_cons] at hsigned
  obtain ⟨rfl, hin, rfl, rfl⟩ := hsigned
  obtain ⟨i, is, rfl, hi, -⟩ := List.map_eq_cons_iff.mp hin
  simp only [TxIn.unsigned, contractInput, TxIn.mk.injEq, true_and] at hi
  obtain ⟨htxid, hvout, hseq⟩ := hi
  have hamount : (builtSpend utxo opts call
      ⟨1, i :: is, pinned ++ opts.request.outputs change, lock⟩).ctx.changeAmount
        = change.toNat := by
    have := hb.changeAmount_eq hlen
    simp only [changeAmount] at this
    simp only [builtSpend, Spend.ctx, changeAmount, this]
  have hout₀ : (pinned ++ opts.request.outputs change)[0]? = some first := by
    rw [List.getElem?_append_left, hfirst]
    exact (List.getElem?_eq_some_iff.mp hfirst).1
  refine ⟨first, hout₀, ⟨rfl, rfl⟩, ⟨⟨i, rfl, htxid, hvout⟩, rfl⟩, hguards ⟨i, rfl, hseq⟩ rfl, ?_,
    hid, rfl, hout₀⟩
  · refine ⟨_, (hout rfl).trans (withChange_outputs hamount hb.unrequested fun h hreq => ?_), ?_⟩
    · simp only [builtSpend, Spend.ctx, hreq, Option.getD_some]
    · rw [List.flatMap_append.symm]
      rfl

theorem buildArpAttestorStake_script {addAmount : ℤ}
    (hscript : attestorTeaLockingScript c = .ok script)
    (hok : buildArpAttestorStake P c utxo addAmount opts txBuilderInit = .ok tx) :
    ∃ balance change, ((balance : UInt64).toNat : ℤ) = utxo.value.toNat + addAmount
      ∧ Built P utxo 0xffffffff opts.funding [⟨balance, script⟩] opts.request
        (fundingTotal opts.funding + utxo.value.toNat) 0 tx change := by
  simp only [buildArpAttestorStake, bind_eq_ok] at hok
  obtain ⟨le, hle, r, hin, script', hscript', hchange⟩ := hok
  obtain rfl := Except.ok.inj (hscript.symm.trans hscript')
  obtain ⟨change, hs⟩ := appendArpChange_eq_ok hchange
  refine ⟨_, change, toNat_of_bnToLeBytes hle, built_of_settled_zero hin ?_ hs (seed_add_value hin)⟩
  simp [txBuilderAddOutput, addInputs_outputs hin]

theorem attestationMsg_of_ok {seq : ℤ} {digest : Block 32} {msg : Bytes}
    (h : arpAttestationMsg seq digest = .ok msg) : attestationMsg seq digest = some msg := by
  obtain ⟨seq8, hseq8, rfl⟩ := arpAttestationMsg_eq_ok.mp h
  have htag : hexLiteral (ascii "415250315f4154544553545f5631") = arpAttestTag := by decide +kernel
  simp [attestationMsg, hseq8, htag]

theorem withdraw_eq {this : AttestorTea} {ctx : Ctx} {operator : Bytes} {value : UInt64}
    (htime : this.unbondNotBefore ≤ ctx.locktime) (hoperator : this.operator = operator)
    (hvalue : ctx.value = value.toNat) : this.withdraw P ctx = withChange ctx
      ([(⟨value, buildP2pkhScript (P.hash160 operator)⟩ : TxOut)].flatMap printTxOut) := by
  have hreq : ctx.locktime ≥ this.unbondNotBefore := htime
  have hpay := buildOutput_p2pkh (P.hash160 operator) hvalue.symm
  simp only [withdraw, require, hreq, if_true, hoperator, hpay, Option.bind_eq_bind,
    Option.bind_some, List.flatMap_singleton]

/-- An equivocation that the program accepts is one for the contract. -/
theorem guards_of_check {seq : ℤ} {digestA digestB : Block 32} {sigA sigB : RabinVerifierSig}
    (hV : ∀ msg sig key, rabinVerifierVerifySig P.sha256 msg sig key = true →
      V.verifySig msg sig key = true)
    (h : attestorTeaCheckEquivocation P.sha256 c seq digestA sigA digestB sigB = .ok true) :
    digestA ≠ digestB ∧ Attested V (ofInstance c script) seq digestA sigA
      ∧ Attested V (ofInstance c script) seq digestB sigB := by
  unfold attestorTeaCheckEquivocation at h
  split_ifs at h with hne
  · exact absurd (Except.ok.inj h) (by simp)
  simp only [bind_eq_ok] at h
  obtain ⟨msgA, hA, h⟩ := h
  split_ifs at h with hsigA
  · exact absurd (Except.ok.inj h) (by simp)
  simp only [bind_eq_ok, pure_eq_ok] at h
  obtain ⟨msgB, hB, hsigB⟩ := h
  rw [Bool.not_eq_true', Bool.not_eq_false] at hsigA
  exact ⟨hne, ⟨msgA, attestationMsg_of_ok hA, hV msgA sigA _ hsigA⟩,
    ⟨msgB, attestationMsg_of_ok hB, hV msgB sigB _ hsigB⟩⟩

/-- The bond accepts every signed transaction of a builder whose caller checked what it asks for, be
it the program's own test of an equivocation, and goes on in its first output. -/
theorem bond_builders_accepted (hscript : attestorTeaLockingScript c = .ok script)
    (hV : ∀ msg sig key, rabinVerifierVerifySig P.sha256 msg sig key = true →
      V.verifySig msg sig key = true)
    (hok : call.build P c utxo lockTime opts = .ok tx) (hsigned : tx'.unsigned = tx.unsigned)
    (hid : txId (fun bs => (sha256d P bs).1) tx' = .ok txid)
    (hpasses : call.Passes P V c lockTime (builtSpend utxo opts call tx')) :
    ∃ first, tx'.outputs[0]? = some first
      ∧ (contract P V (ofInstance c script)).Step P
        ⟨hexToLower utxo.txidDisplay, utxo.vout, utxo.value, script⟩
        ⟨ofInstance c script, builtSpend utxo opts call tx', call⟩
        ⟨txid, 0, first.satoshis, first.script⟩ := by
  cases call with
  | slashEquivocation seq digestA sigA digestB sigB reporter =>
    obtain ⟨change, hb⟩ := buildArpAttestorSlash_eq_ok hok
    refine step_of_built hb rfl hsigned hid rfl (fun _ _ => guards_of_check hV hpasses) fun _ => ?_
    obtain ⟨hbounty, hburn⟩ := uint64_half utxo.value
    rw [← hbounty] at hburn
    simp only [outputs, slashEquivocation, builtSpend, Spend.ctx, ← hbounty, ← hburn,
      buildOutput_toNat, buildOpreturnScript_slash, buildOutput_p2pkh _ rfl, Option.bind_eq_bind,
      Option.bind_some]
    simp
  | stake addAmount =>
    obtain ⟨balance, change, hbalance, hb⟩ := buildArpAttestorStake_script hscript hok
    refine step_of_built hb rfl hsigned hid rfl (fun _ _ => trivial) fun _ => ?_
    have hpos : addAmount > 0 := hpasses
    simp only [outputs, stake, builtSpend, Spend.ctx, require, hpos, if_true, ← hbalance,
      buildOutput_toNat, ofInstance, Option.bind_eq_bind, Option.bind_some]
    simp
  | withdraw operatorSig =>
    obtain ⟨change, hb⟩ := buildArpAttestorWithdraw_eq_ok hok
    obtain ⟨⟨hunbond, hlow, hhigh⟩, hsig⟩ := hpasses
    refine step_of_built hb rfl hsigned hid rfl (fun hinput _ => ⟨?_, hsig⟩) fun hlock => ?_
    · obtain ⟨i, hi, hseq⟩ := hinput
      exact ⟨i, hi, by rw [hseq]; decide⟩
    · have htime : (builtSpend utxo opts (.withdraw operatorSig) tx').ctx.locktime = lockTime := by
        simp only [builtSpend, Spend.ctx, hlock, toNat_u32OfInt hlow hhigh]
      exact withdraw_eq (by rwa [htime]) rfl rfl

/-- The builder's transaction for a stake, with an unlocking script. -/
def exampleStakeTx : Tx :=
  ((Call.stake 100).build codePrims BuilderCall.exampleAttestor BuilderCall.exampleUtxo 0
    ⟨BuilderCall.exampleFunding, some BuilderCall.exampleChange, true⟩).toOption.getD txBuilderInit

def exampleStakeScript : Bytes :=
  (attestorTeaLockingScript BuilderCall.exampleAttestor).toOption.getD []

example : exampleStakeTx.outputs.head?.map TxOut.satoshis = some 1100 := by decide +kernel

theorem bond_builders_accepted_stake : ∃ txid first,
    (withScript exampleStakeTx 0 [0x51]).outputs[0]? = some first
      ∧ (contract codePrims exampleVerifiers (ofInstance BuilderCall.exampleAttestor
          exampleStakeScript)).Step codePrims
        ⟨hexToLower BuilderCall.exampleUtxo.txidDisplay, 0, 1000, exampleStakeScript⟩
        ⟨ofInstance BuilderCall.exampleAttestor exampleStakeScript,
          builtSpend BuilderCall.exampleUtxo
            ⟨BuilderCall.exampleFunding, some BuilderCall.exampleChange, true⟩ (.stake 100)
            (withScript exampleStakeTx 0 [0x51]), .stake 100⟩
        ⟨txid, 0, first.satoshis, first.script⟩ := by
  have hscript : attestorTeaLockingScript BuilderCall.exampleAttestor = .ok exampleStakeScript := by
    decide +kernel
  have hok : (Call.stake 100).build codePrims BuilderCall.exampleAttestor
      BuilderCall.exampleUtxo 0 ⟨BuilderCall.exampleFunding, some BuilderCall.exampleChange, true⟩
        = .ok exampleStakeTx := by decide +kernel
  obtain ⟨txid, hid⟩ := Option.isSome_iff_exists.mp (by decide +kernel :
    (txId (fun bs => (sha256d codePrims bs).1)
      (withScript exampleStakeTx 0 [0x51])).toOption.isSome)
  exact ⟨txid, bond_builders_accepted hscript (fun _ _ _ h => h) hok
    (withScript_unsigned exampleStakeTx 0 [0x51]) (toOption_eq_some.mp hid)
    (by decide : (0 : ℤ) < 100)⟩

end Builders

end BonsaiChain.Covenant.AttestorTea
