import BonsaiChain.BuilderCall
import BonsaiChain.Proofs.Common
import BonsaiChain.Proofs.Num2bin
import BonsaiChain.Proofs.TxBuilders

/-!
# What every builder builds

One lemma for each builder: a successful call leaves the contract input and the funding inputs, the
pinned outputs, the settled change and a locktime, and nothing else.
-/

namespace BonsaiChain

open Lib

/-- The change output a request leaves. -/
def ChangeRequest.outputs (req : ChangeRequest) (change : UInt64) : List TxOut :=
  match req.hash with
  | Option.none => []
  | some h => changeOutputs h change

/-- The outputs before a fixed-fee change output add up without overflow; the other settlement
checks this itself. -/
def ChangeRequest.Bounded (req : ChangeRequest) (os : List TxOut) : Prop :=
  match req with
  | .fixedFee _ _ => outTotal os < 2 ^ 64
  | _ => True

theorem ChangeRequest.bounded_of_lt {req : ChangeRequest} {os : List TxOut}
    (h : outTotal os < 2 ^ 64) : req.Bounded os := by
  cases req with
  | fixedFee => exact h
  | _ => trivial

theorem RicardianTeaBuilderOpts.bounded_request (opts : RicardianTeaBuilderOpts)
    (os : List TxOut) : opts.request.Bounded os := by
  rcases opts with ⟨funding, _ | h, _ | _, feePerKb⟩ <;> trivial

/-- A change step: the outputs grow by the requested change output, and the total it was seeded with
is what the outputs before it, the fee and the change use up. -/
structure Settled (P : Prims) (req : ChangeRequest) (b : Tx) (total : UInt64) (b' : Tx)
    (change : UInt64) : Prop where
  tx_eq : b' = { b with outputs := b.outputs ++ req.outputs change }
  unrequested : req.hash = none → change = 0
  total_eq : req.Bounded b.outputs → ∀ h, req.hash = some h →
    total.toNat = outTotal b.outputs + (req.fee P (sizeWithChange b h)).toNat + change.toNat

/-- The transaction of a successful builder call. -/
structure Built (P : Prims) (utxo : ContractUtxo) (sequence : UInt32) (funding : List FundingUtxo)
    (pinned : List TxOut) (req : ChangeRequest) (seed : ℤ) (locktime : UInt32) (tx : Tx)
    (change : UInt64) : Prop where
  tx_eq : tx = ⟨1, contractInput utxo sequence :: funding.map fundingInput,
    pinned ++ req.outputs change, locktime⟩
  unrequested : req.hash = none → change = 0
  seed_eq : req.Bounded pinned → ∀ h, req.hash = some h →
    seed % 2 ^ 64 = outTotal pinned
      + (req.fee P (sizeWithChange { tx with outputs := pinned } h)).toNat + change.toNat

theorem ChangeRequest.outputs_zero (req : ChangeRequest) : req.outputs 0 = [] := by
  unfold ChangeRequest.outputs
  split
  · rfl
  · rfl

theorem ChangeRequest.outputs_of_ne {req : ChangeRequest} {h : Block 20} {change : UInt64}
    (hreq : req.hash = some h) (hne : change ≠ 0) :
    req.outputs change = [⟨change, buildP2pkhScript h⟩] := by
  simp [ChangeRequest.outputs, hreq, changeOutputs, hne]

/-- The change output of a built transaction is the one after the pinned outputs. -/
theorem Built.changeAmount_eq {P : Prims} {utxo : ContractUtxo} {sequence : UInt32}
    {funding : List FundingUtxo} {pinned : List TxOut} {req : ChangeRequest} {seed : ℤ}
    {locktime : UInt32} {tx : Tx} {change : UInt64}
    (hb : Built P utxo sequence funding pinned req seed locktime tx change) {n : ℕ}
    (hn : pinned.length = n) : changeAmount n tx = change := by
  subst hn
  have hout : tx.outputs = pinned ++ req.outputs change := by rw [hb.tx_eq]
  unfold changeAmount
  rw [hout]
  by_cases hc : change = 0
  · subst hc
    simp [ChangeRequest.outputs_zero]
  · rcases hreq : req.hash with _ | h
    · exact absurd (hb.unrequested hreq) hc
    · simp [ChangeRequest.outputs_of_ne hreq hc]

section ChangeSteps

variable {P : Prims} {b b' : Tx} {total : UInt64}

theorem settled_none : Settled P .none b total b 0 where
  tx_eq := by simp [ChangeRequest.outputs, ChangeRequest.hash]
  unrequested _ := rfl
  total_eq _ _ h := nomatch h

theorem settled_perKb {h : Block 20} {rate : UInt64}
    (hok : appendChange P b h total rate = .ok b') :
    ∃ change, Settled P (.perKb h rate) b total b' change := by
  obtain ⟨change, htotal, rfl⟩ := appendChange_eq_ok hok
  refine ⟨change, by simp [ChangeRequest.outputs, ChangeRequest.hash], nofun, ?_⟩
  intro _ h' hh'
  obtain rfl : h = h' := Option.some.inj hh'
  exact htotal

theorem sum_toNat : ∀ os : List TxOut,
    (os.map TxOut.satoshis).sum.toNat = outTotal os % 2 ^ 64
  | [] => rfl
  | o :: os => by
    rw [List.map_cons, List.sum_cons, UInt64.toNat_add, sum_toNat os, outTotal_cons]
    omega

theorem settled_fixedFee {h : Block 20} {fee : UInt64}
    (hok : appendChangeFixedFee b h total fee = .ok b') :
    ∃ change, Settled P (.fixedFee h fee) b total b' change := by
  simp only [appendChangeFixedFee, guard_eq_ok] at hok
  obtain ⟨hle, hfee, hok⟩ := hok
  refine ⟨total - (b.outputs.map (·.satoshis)).sum - fee, ?_, nofun, ?_⟩
  · show b' = { b with outputs := b.outputs ++ changeOutputs h _ }
    rw [← ite_change]
    split_ifs at hok ⊢
    · exact (pure_eq_ok.mp hok).symm
    · exact (pure_eq_ok.mp hok).symm
  · intro hlt _ _
    rw [toNat_sub_sub hle hfee, sum_toNat, Nat.mod_eq_of_lt hlt]
    rfl

theorem appendChangeOpts_eq_ok {opts : AgentTeaBuilderOpts}
    (hok : appendChangeOpts P b opts total = .ok b') :
    ∃ change, Settled P opts.request b total b' change := by
  rcases opts with ⟨funding, _ | h, _ | _, feeSats, _ | _⟩
  case some.true.false => exact settled_perKb hok
  case some.true.true => exact settled_fixedFee hok
  all_goals
    obtain rfl := Except.ok.inj hok
    exact ⟨0, settled_none⟩

theorem appendRicardianTeaChange_eq_ok {opts : RicardianTeaBuilderOpts}
    (hok : appendRicardianTeaChange P b opts total = .ok b') :
    ∃ change, Settled P opts.request b total b' change := by
  rcases opts with ⟨funding, _ | h, _ | _, feePerKb⟩
  case some.true => exact settled_perKb hok
  all_goals
    obtain rfl := Except.ok.inj hok
    exact ⟨0, settled_none⟩

theorem appendArpChange_eq_ok {opts : ArpBuilderOpts}
    (hok : appendArpChange P b opts total = .ok b') :
    ∃ change, Settled P opts.request b total b' change := by
  rcases opts with ⟨funding, _ | h, _ | _⟩
  case some.true => exact settled_perKb hok
  all_goals
    obtain rfl := Except.ok.inj hok
    exact ⟨0, settled_none⟩

end ChangeSteps

section Assembly

variable {P : Prims} {utxo : ContractUtxo} {sequence : UInt32} {funding : List FundingUtxo}
  {r : Tx × UInt64} {b b' : Tx} {pinned : List TxOut} {req : ChangeRequest} {total change : UInt64}
  {seed : ℤ}

/-- Inputs, pinned outputs, a change step and the locktime make a built transaction. -/
theorem built_of_settled (hin : addInputs txBuilderInit utxo sequence funding = .ok r)
    (hb : b = { r.1 with outputs := pinned }) (hs : Settled P req b total b' change)
    (hseed : (total.toNat : ℤ) = seed % 2 ^ 64) (locktime : UInt32) :
    Built P utxo sequence funding pinned req seed locktime { b' with locktime := locktime }
      change := by
  obtain ⟨hr, -⟩ := addInputs_eq_ok hin
  obtain ⟨rfl, hreq, htotal⟩ := hs
  refine ⟨by simp [hb, hr, txBuilderInit], hreq, ?_⟩
  intro hlt h hh
  have hout : b.outputs = pinned := by rw [hb]
  have hsize : sizeWithChange { b with outputs := pinned, locktime := locktime } h
      = sizeWithChange b h := by
    simp [sizeWithChange, estimateSize, txBuilderAddOutput, hout]
  rw [hout] at htotal
  show seed % 2 ^ 64 = _ + ((req.fee P (sizeWithChange { b with
    outputs := pinned, locktime := locktime } h)).toNat : ℤ) + _
  rw [hsize, ← hseed, htotal hlt h hh]
  push_cast
  ring

/-- The same without a locktime of its own. -/
theorem built_of_settled_zero (hin : addInputs txBuilderInit utxo sequence funding = .ok r)
    (hb : b = { r.1 with outputs := pinned }) (hs : Settled P req b total b' change)
    (hseed : (total.toNat : ℤ) = seed % 2 ^ 64) :
    Built P utxo sequence funding pinned req seed 0 b' change := by
  have hlock : b'.locktime = 0 := by
    rw [hs.tx_eq, hb, (addInputs_eq_ok hin).1]
    rfl
  have := built_of_settled hin hb hs hseed b'.locktime
  rwa [hlock, show { b' with locktime := 0 } = b' by rw [← hlock]] at this

/-- The seed of the builders that count the contract output. -/
theorem seed_add_value (hin : addInputs txBuilderInit utxo sequence funding = .ok r) :
    ((r.2 + utxo.value).toNat : ℤ) = (fundingTotal funding + utxo.value.toNat) % 2 ^ 64 := by
  obtain ⟨-, h⟩ := addInputs_eq_ok hin
  rw [UInt64.toNat_add]
  push_cast
  omega

/-- The seed of the builders that do not. -/
theorem seed_funding (hin : addInputs txBuilderInit utxo sequence funding = .ok r) :
    (r.2.toNat : ℤ) = fundingTotal funding % 2 ^ 64 := (addInputs_eq_ok hin).2

theorem addInputs_outputs (hin : addInputs txBuilderInit utxo sequence funding = .ok r) :
    r.1.outputs = [] := by
  rw [(addInputs_eq_ok hin).1]
  rfl

/-- The data output script of a 32-byte hash. -/
def receiptScript (hash : Block 32) : Bytes := [0x00, 0x6a, 0x20] ++ hash.1

theorem buildOpreturnScript_hash (hash : Block 32) :
    buildOpreturnScript hash.1 = .ok (receiptScript hash) := by
  simp [buildOpreturnScript, receiptScript, hash.2]

theorem appendOpreturnHash_eq_ok {hash : Block 32} (h : appendOpreturnHash b hash = .ok b') :
    b' = txBuilderAddOutput b (receiptScript hash) 0 := by
  simp only [appendOpreturnHash, buildOpreturnScript_hash, bind_eq_ok, pure_eq_ok,
    Except.ok.injEq] at h
  obtain ⟨op, rfl, rfl⟩ := h
  rfl

/-- The data output script of a slash. -/
def slashedScript : Bytes := [0x00, 0x6a, 0x08] ++ slashedMarker

theorem buildOpreturnScript_slashed : buildOpreturnScript slashedMarker = .ok slashedScript := by
  decide

end Assembly

section AgentTea

variable {P : Prims} {c : AgentTea} {identity : ContractUtxo} {opts : AgentTeaBuilderOpts} {tx : Tx}

theorem agentTeaReceiptHash_eq_ok {counterparty : Block 33} {amount now : ℤ}
    {actionHash provenanceHash : Block 32} {hex : CString} {bs : Bytes}
    (hhex : agentTeaReceiptHash P c counterparty amount actionHash provenanceHash now = .ok hex)
    (hbs : hexDecodeFixed hex 32 = .ok bs) :
    ∃ pre, agentTeaReceiptPreimage c counterparty amount actionHash provenanceHash now = .ok pre
      ∧ bs = (P.sha256 pre).1 := by
  simp only [agentTeaReceiptHash, bind_eq_ok, pure_eq_ok] at hhex
  obtain ⟨pre, hpre, rfl⟩ := hhex
  rw [hexDecodeFixed_hexEncode (P.sha256 pre).2] at hbs
  exact ⟨pre, hpre, (Except.ok.inj hbs).symm⟩

theorem buildAgentTeaAction_eq_ok {counterparty : Block 33} {amount now : ℤ}
    {actionHash provenanceHash : Block 32}
    (hok : buildAgentTeaAction P c identity counterparty amount actionHash provenanceHash now opts
      txBuilderInit = .ok tx) :
    ∃ pre script change,
      agentTeaReceiptPreimage c counterparty amount actionHash provenanceHash now = .ok pre
        ∧ agentTeaLockingScript { c with state := agentTeaApplyAction c amount now } false
          = .ok script
        ∧ Built P identity 0 opts.funding
          [⟨identity.value, script⟩, ⟨0, receiptScript (P.sha256 pre)⟩] opts.request
          (fundingTotal opts.funding + identity.value.toNat) (u32OfInt now) tx change := by
  simp only [buildAgentTeaAction, bind_eq_ok, pure_eq_ok, appendAgentTeaState] at hok
  obtain ⟨hex, hhex, bs, hbs, r, hin, b1, ⟨script, hscript, rfl⟩, op, hop, b2, hchange, rfl⟩ := hok
  obtain ⟨pre, hpre, rfl⟩ := agentTeaReceiptHash_eq_ok hhex hbs
  obtain rfl : op = receiptScript (P.sha256 pre) := by
    rw [buildOpreturnScript_hash] at hop
    exact (Except.ok.inj hop).symm
  obtain ⟨change, hs⟩ := appendChangeOpts_eq_ok hchange
  refine ⟨pre, script, change, hpre, hscript, built_of_settled hin ?_ hs (seed_add_value hin) _⟩
  simp [txBuilderAddOutput, addInputs_outputs hin]

/-- The eight-byte sum the stake builders decode is the sum. -/
theorem toNat_of_bnToLeBytes {n : ℤ} {le : Bytes} (h : bnToLeBytes n 8 = .ok le) :
    ((UInt64.ofNat (leNat le)).toNat : ℤ) = n := by
  obtain ⟨h0, hlt, rfl⟩ := bnToLeBytes_eq_ok.mp h
  have hlt' : n.toNat < 256 ^ 8 := by
    rw [← Nat.cast_lt (α := ℤ), Int.toNat_of_nonneg h0]
    exact_mod_cast hlt
  rw [leNat_leBytes_of_lt hlt', UInt64.toNat_ofNat', Nat.mod_eq_of_lt (by omega),
    Int.toNat_of_nonneg h0]

theorem buildAgentTeaStake_eq_ok {addAmount : ℤ}
    (hok : buildAgentTeaStake P c identity addAmount opts txBuilderInit = .ok tx) :
    ∃ balance script change, (balance.toNat : ℤ) = identity.value.toNat + addAmount
      ∧ agentTeaLockingScript c false = .ok script
      ∧ Built P identity 0xffffffff opts.funding [⟨balance, script⟩] opts.request
        (fundingTotal opts.funding + identity.value.toNat) 0 tx change := by
  simp only [buildAgentTeaStake, stakedBalance, bind_eq_ok, pure_eq_ok,
    appendAgentTeaState] at hok
  obtain ⟨balance, ⟨le, hle, rfl⟩, r, hin, b1, ⟨script, hscript, rfl⟩, hchange⟩ := hok
  obtain ⟨change, hs⟩ := appendChangeOpts_eq_ok hchange
  refine ⟨_, script, change, toNat_of_bnToLeBytes hle, hscript,
    built_of_settled_zero hin ?_ hs (seed_add_value hin)⟩
  simp [txBuilderAddOutput, addInputs_outputs hin]

theorem buildAgentTeaSlashValidator_eq_ok {reporter : Block 33}
    (hok : buildAgentTeaSlashValidator P identity reporter opts txBuilderInit = .ok tx) :
    ∃ change, Built P identity 0xffffffff opts.funding
      [⟨identity.value / 2, buildP2pkhScript (P.hash160 reporter.1)⟩,
        ⟨identity.value - identity.value / 2, slashedScript⟩] opts.request
      (fundingTotal opts.funding + identity.value.toNat) 0 tx change := by
  simp only [buildAgentTeaSlashValidator, bind_eq_ok, buildOpreturnScript_slashed] at hok
  obtain ⟨r, hin, op, hop, hchange⟩ := hok
  obtain rfl := Except.ok.inj hop
  obtain ⟨change, hs⟩ := appendChangeOpts_eq_ok hchange
  refine ⟨change, built_of_settled_zero hin ?_ hs (seed_add_value hin)⟩
  simp [txBuilderAddOutput, appendP2pkhPubkey, addInputs_outputs hin]

theorem buildAgentTeaRecover_eq_ok {newAgent : Block 33}
    (hok : buildAgentTeaRecover P c identity newAgent opts txBuilderInit = .ok tx) :
    ∃ pre script change, agentTeaRecoverPreimage c newAgent = .ok pre
      ∧ agentTeaLockingScriptEx
          { c with state := { c.state with recoveryCount := c.state.recoveryCount + 1 } } false
          (some newAgent.1) = .ok script
      ∧ Built P identity 0xffffffff opts.funding
        [⟨identity.value, script⟩, ⟨0, receiptScript (P.sha256 pre)⟩] opts.request
        (fundingTotal opts.funding + identity.value.toNat) 0 tx change := by
  simp only [buildAgentTeaRecover, bind_eq_ok] at hok
  obtain ⟨pre, hpre, r, hin, script, hscript, b1, hop, hchange⟩ := hok
  obtain rfl := appendOpreturnHash_eq_ok hop
  obtain ⟨change, hs⟩ := appendChangeOpts_eq_ok hchange
  refine ⟨pre, script, change, hpre, hscript,
    built_of_settled_zero hin ?_ hs (seed_add_value hin)⟩
  simp [txBuilderAddOutput, addInputs_outputs hin]

theorem buildAgentTeaRevoke_eq_ok
    (hok : buildAgentTeaRevoke P c identity opts txBuilderInit = .ok tx) :
    ∃ change, c.params.owner.length = 33 ∧ Built P identity 0xffffffff opts.funding
      [⟨identity.value, buildP2pkhScript (P.hash160 c.params.owner)⟩] opts.request
      (fundingTotal opts.funding + identity.value.toNat) 0 tx change := by
  simp only [buildAgentTeaRevoke, bind_eq_ok, guard_eq_ok, not_not] at hok
  obtain ⟨howner, r, hin, hchange⟩ := hok
  obtain ⟨change, hs⟩ := appendChangeOpts_eq_ok hchange
  refine ⟨change, howner, built_of_settled_zero hin ?_ hs (seed_add_value hin)⟩
  simp [txBuilderAddOutput, appendP2pkhPubkey, addInputs_outputs hin]

end AgentTea

section RicardianTea

variable {P : Prims} {c : RicardianTea} {identity : ContractUtxo} {opts : RicardianTeaBuilderOpts}
  {tx : Tx}

theorem ricardianTeaReceiptHash_eq_ok {counterparty : Block 33} {amount now : ℤ}
    {invoiceHash provenanceHash : Block 32} {hex : CString} {bs : Bytes}
    (hhex : ricardianTeaReceiptHash P c counterparty amount invoiceHash provenanceHash now
      = .ok hex) (hbs : hexDecodeFixed hex 32 = .ok bs) :
    ∃ pre, ricardianTeaReceiptPreimage c counterparty amount invoiceHash provenanceHash now
        = .ok pre ∧ bs = (P.sha256 pre).1 := by
  simp only [ricardianTeaReceiptHash, bind_eq_ok, pure_eq_ok] at hhex
  obtain ⟨pre, hpre, rfl⟩ := hhex
  rw [hexDecodeFixed_hexEncode (P.sha256 pre).2] at hbs
  exact ⟨pre, hpre, (Except.ok.inj hbs).symm⟩

theorem buildRicardianTeaExecute_eq_ok {counterparty : Block 33} {amount now : ℤ}
    {invoiceHash provenanceHash : Block 32}
    (hok : buildRicardianTeaExecute P c identity counterparty amount invoiceHash provenanceHash now
      opts txBuilderInit = .ok tx) :
    ∃ pre script amountSats change,
      ricardianTeaReceiptPreimage c counterparty amount invoiceHash provenanceHash now = .ok pre
        ∧ ricardianTeaLockingScript { c with state := ricardianTeaApplyAction c amount now } false
          = .ok script
        ∧ (amountSats.toNat : ℤ) = amount
        ∧ Built P identity 0 opts.funding
          [⟨identity.value, script⟩,
            ⟨amountSats, buildP2pkhScript (P.hash160 counterparty.1)⟩,
            ⟨0, receiptScript (P.sha256 pre)⟩] opts.request
          (fundingTotal opts.funding + identity.value.toNat) (u32OfInt now) tx change := by
  simp only [buildRicardianTeaExecute, bnToU64, bind_eq_ok, pure_eq_ok,
    appendRicardianTeaState] at hok
  obtain ⟨hex, hhex, bs, hbs, amountSats, ⟨le, hle, rfl⟩, r, hin, b1, ⟨script, hscript, rfl⟩, op,
    hop, b2, hchange, rfl⟩ := hok
  obtain ⟨pre, hpre, rfl⟩ := ricardianTeaReceiptHash_eq_ok hhex hbs
  obtain rfl : op = receiptScript (P.sha256 pre) := by
    rw [buildOpreturnScript_hash] at hop
    exact (Except.ok.inj hop).symm
  obtain ⟨change, hs⟩ := appendRicardianTeaChange_eq_ok hchange
  refine ⟨pre, script, _, change, hpre, hscript, toNat_of_bnToLeBytes hle,
    built_of_settled hin ?_ hs (seed_add_value hin) _⟩
  simp [txBuilderAddOutput, appendP2pkhPubkey, addInputs_outputs hin]

theorem buildPayoutToPubkey_eq_ok {payeePubkey : Bytes}
    (hok : buildPayoutToPubkey P identity payeePubkey opts txBuilderInit = .ok tx) :
    ∃ change, Built P identity 0xffffffff opts.funding
      [⟨identity.value, buildP2pkhScript (P.hash160 payeePubkey)⟩] opts.request
      (fundingTotal opts.funding + identity.value.toNat) 0 tx change := by
  simp only [buildPayoutToPubkey, bind_eq_ok] at hok
  obtain ⟨r, hin, hchange⟩ := hok
  obtain ⟨change, hs⟩ := appendRicardianTeaChange_eq_ok hchange
  refine ⟨change, built_of_settled_zero hin ?_ hs (seed_add_value hin)⟩
  simp [txBuilderAddOutput, appendP2pkhPubkey, addInputs_outputs hin]

theorem buildRicardianTeaRevoke_eq_ok
    (hok : buildRicardianTeaRevoke P c identity opts txBuilderInit = .ok tx) :
    ∃ change, c.params.owner.length = 33 ∧ Built P identity 0xffffffff opts.funding
      [⟨identity.value, buildP2pkhScript (P.hash160 c.params.owner)⟩] opts.request
      (fundingTotal opts.funding + identity.value.toNat) 0 tx change := by
  simp only [buildRicardianTeaRevoke, error_ite_eq_ok, not_not] at hok
  obtain ⟨howner, hok⟩ := hok
  obtain ⟨change, hbuilt⟩ := buildPayoutToPubkey_eq_ok hok
  exact ⟨change, howner, hbuilt⟩

theorem buildRicardianTeaCheckpoint_eq_ok {newCheckpointHash : Block 32}
    (hok : buildRicardianTeaCheckpoint P c identity newCheckpointHash opts txBuilderInit = .ok tx) :
    ∃ script change,
      ricardianTeaLockingScript
          { c with state := { c.state with slashCheckpointHash := newCheckpointHash.1 } } false
        = .ok script
      ∧ Built P identity 0xffffffff opts.funding [⟨identity.value, script⟩] opts.request
        (fundingTotal opts.funding + identity.value.toNat) 0 tx change := by
  simp only [buildRicardianTeaCheckpoint, bind_eq_ok, pure_eq_ok,
    appendRicardianTeaState] at hok
  obtain ⟨r, hin, b1, ⟨script, hscript, rfl⟩, hchange⟩ := hok
  obtain ⟨change, hs⟩ := appendRicardianTeaChange_eq_ok hchange
  refine ⟨script, change, hscript, built_of_settled_zero hin ?_ hs (seed_add_value hin)⟩
  simp [txBuilderAddOutput, addInputs_outputs hin]

end RicardianTea

section Arp

variable {P : Prims} {c : PublisherTea} {utxo : ContractUtxo} {opts : ArpBuilderOpts} {tx : Tx}

theorem stateAndReceiptTx_eq_ok {receiptPreimage : Bytes} {now : ℤ}
    (hok : stateAndReceiptTx P c utxo receiptPreimage now opts txBuilderInit = .ok tx) :
    ∃ script change, publisherTeaLockingScript c false = .ok script
      ∧ Built P utxo 0 opts.funding
        [⟨utxo.value, script⟩, ⟨0, receiptScript (P.sha256 receiptPreimage)⟩] opts.request
        (fundingTotal opts.funding) (u32OfInt now) tx change := by
  simp only [stateAndReceiptTx, bind_eq_ok, pure_eq_ok] at hok
  obtain ⟨r, hin, script, hscript, b1, hop, b2, hchange, rfl⟩ := hok
  obtain rfl := appendOpreturnHash_eq_ok hop
  obtain ⟨change, hs⟩ := appendArpChange_eq_ok hchange
  refine ⟨script, change, hscript, built_of_settled hin ?_ hs (seed_funding hin) _⟩
  simp [txBuilderAddOutput, addInputs_outputs hin]

theorem buildArpRetire_eq_ok (hok : buildArpRetire P c utxo opts txBuilderInit = .ok tx) :
    ∃ change, Built P utxo 0xffffffff opts.funding
      [⟨utxo.value, buildP2pkhScript (P.hash160 c.params.publisherKey)⟩] opts.request
      (fundingTotal opts.funding + utxo.value.toNat) 0 tx change := by
  simp only [buildArpRetire, bind_eq_ok, guard_eq_ok] at hok
  obtain ⟨-, r, hin, hchange⟩ := hok
  obtain ⟨change, hs⟩ := appendArpChange_eq_ok hchange
  refine ⟨change, built_of_settled_zero hin ?_ hs (seed_add_value hin)⟩
  simp [txBuilderAddOutput, appendP2pkhPubkey, addInputs_outputs hin]

theorem buildArpAttestorSlash_eq_ok {reporter : Block 33}
    (hok : buildArpAttestorSlash P utxo reporter opts txBuilderInit = .ok tx) :
    ∃ change, Built P utxo 0xffffffff opts.funding
      [⟨utxo.value / 2, buildP2pkhScript (P.hash160 reporter.1)⟩,
        ⟨utxo.value - utxo.value / 2, slashedScript⟩] opts.request
      (fundingTotal opts.funding + utxo.value.toNat) 0 tx change := by
  simp only [buildArpAttestorSlash, bind_eq_ok, buildOpreturnScript_slashed] at hok
  obtain ⟨r, hin, op, hop, hchange⟩ := hok
  obtain rfl := Except.ok.inj hop
  obtain ⟨change, hs⟩ := appendArpChange_eq_ok hchange
  refine ⟨change, built_of_settled_zero hin ?_ hs (seed_add_value hin)⟩
  simp [txBuilderAddOutput, appendP2pkhPubkey, addInputs_outputs hin]

theorem buildArpAttestorStake_eq_ok {a : AttestorTea} {addAmount : ℤ}
    (hok : buildArpAttestorStake P a utxo addAmount opts txBuilderInit = .ok tx) :
    ∃ balance script change, (balance.toNat : ℤ) = utxo.value.toNat + addAmount
      ∧ Built P utxo 0xffffffff opts.funding [⟨balance, script⟩] opts.request
        (fundingTotal opts.funding + utxo.value.toNat) 0 tx change := by
  simp only [buildArpAttestorStake, bind_eq_ok] at hok
  obtain ⟨le, hle, r, hin, script, -, hchange⟩ := hok
  obtain ⟨change, hs⟩ := appendArpChange_eq_ok hchange
  refine ⟨_, script, change, toNat_of_bnToLeBytes hle,
    built_of_settled_zero hin ?_ hs (seed_add_value hin)⟩
  simp [txBuilderAddOutput, addInputs_outputs hin]

theorem buildArpAttestorWithdraw_eq_ok {a : AttestorTea} {lockTime : ℤ}
    (hok : buildArpAttestorWithdraw P a utxo lockTime opts txBuilderInit = .ok tx) :
    ∃ change, Built P utxo 0 opts.funding
      [⟨utxo.value, buildP2pkhScript (P.hash160 a.params.operatorPubkey)⟩] opts.request
      (fundingTotal opts.funding + utxo.value.toNat) (u32OfInt lockTime) tx change := by
  simp only [buildArpAttestorWithdraw, bind_eq_ok, guard_eq_ok, pure_eq_ok] at hok
  obtain ⟨-, r, hin, b1, hchange, rfl⟩ := hok
  obtain ⟨change, hs⟩ := appendArpChange_eq_ok hchange
  refine ⟨change, built_of_settled hin ?_ hs (seed_add_value hin) _⟩
  simp [txBuilderAddOutput, appendP2pkhPubkey, addInputs_outputs hin]

end Arp

end BonsaiChain
