import BonsaiChain.Proofs.BuilderCall

/-!
# Fixed-fee change is safe on bounded inputs only

The settlement after a fixed fee bounds neither the spent values nor their sum, as the settlement at
a rate does. A call it accepts is safe exactly when the values it spends are amounts of money that
sum to at most the money supply.
-/

namespace BonsaiChain

open Lib

namespace BuilderCall

/-- Every spent value is an amount of money, and so is their exact sum. -/
structure InRange (call : BuilderCall) : Prop where
  utxo : call.utxo.value ≤ bonsaiMaxMoney
  funding : ∀ u ∈ call.funding, 0 ≤ u.satoshis ∧ u.satoshis ≤ bonsaiMaxMoney.toNat
  spent : call.spent ≤ bonsaiMaxMoney.toNat

/-- An accepted call with a fixed fee is safe: the spent and created values are amounts of money,
the spent value is what is created and the fee, and no running sum wraps. -/
structure FixedFeeSafe (call : BuilderCall) (feeSats : UInt64) (tx : Tx) : Prop where
  inRange : call.InRange
  created : ∀ o ∈ tx.outputs, o.satoshis ≤ bonsaiMaxMoney
  conserves : call.spent = outTotal tx.outputs + feeSats.toNat
  fundingSum : ∀ laps r, addFunding txBuilderInit (call.funding.take laps) 0 = .ok r →
    (r.2.toNat : ℤ) = fundingTotal (call.funding.take laps)
  seedSum : ∀ r, addFunding txBuilderInit call.funding 0 = .ok r →
    ((r.2 + call.utxo.value).toNat : ℤ) = call.spent
  outputSum : ∀ laps, (((tx.outputs.take call.pinned).take laps).map TxOut.satoshis).sum.toNat
    = outTotal ((tx.outputs.take call.pinned).take laps)

section Sums

theorem outTotal_take_le (os : List TxOut) (n : ℕ) : outTotal (os.take n) ≤ outTotal os := by
  have h := outTotal_append (os.take n) (os.drop n)
  rw [List.take_append_drop] at h
  omega

theorem satoshis_le_outTotal {os : List TxOut} {o : TxOut} (h : o ∈ os) :
    o.satoshis.toNat ≤ outTotal os := by
  obtain ⟨before, after, rfl⟩ := List.append_of_mem h
  rw [outTotal_append, outTotal_cons]
  omega

theorem fundingTotal_take_le {funding : List FundingUtxo} (h : ∀ u ∈ funding, 0 ≤ u.satoshis)
    (n : ℕ) : fundingTotal (funding.take n) ≤ fundingTotal funding := by
  have hdrop := fundingTotal_nonneg fun u hu => h u ((List.drop_sublist n funding).subset hu)
  have hsplit : fundingTotal funding = fundingTotal (funding.take n)
      + fundingTotal (funding.drop n) := by
    unfold fundingTotal
    rw [← List.sum_append, ← List.map_append, List.take_append_drop]
  omega

end Sums

variable {P : Prims} {call : BuilderCall} {tx : Tx} {h : Block 20} {feeSats : UInt64}

theorem arpRequest_ne_fixedFee (opts : ArpBuilderOpts) : opts.request ≠ .fixedFee h feeSats := by
  rcases opts with ⟨funding, _ | h, _ | _⟩ <;> exact nofun

/-- Only the AgentTea builders take a fixed fee, and they count the contract output. -/
theorem isStateAndReceipt_of_fixedFee (hreq : call.request = .fixedFee h feeSats) :
    call.isStateAndReceipt = false := by
  cases call with
  | arpAnnounce c utxo bundleHash fileSetRoot now opts =>
    exact absurd hreq (arpRequest_ne_fixedFee opts)
  | arpActivate c utxo activateDigest now opts => exact absurd hreq (arpRequest_ne_fixedFee opts)
  | arpCancel c utxo now opts => exact absurd hreq (arpRequest_ne_fixedFee opts)
  | arpInvalidate c utxo activateDigest now opts => exact absurd hreq (arpRequest_ne_fixedFee opts)
  | _ => rfl

/-- A fixed-fee call that was accepted is safe exactly when what it spends is in range. -/
theorem fixedFee_safe_iff (hreq : call.request = .fixedFee h feeSats)
    (hok : call.build P = .ok tx) : call.FixedFeeSafe feeSats tx ↔ call.InRange := by
  refine ⟨fun hsafe => hsafe.inRange, fun hrange => ?_⟩
  have hmax : bonsaiMaxMoney.toNat = 2100000000000000 := rfl
  have hfund (u : FundingUtxo) (hu : u ∈ call.funding) : 0 ≤ u.satoshis := (hrange.funding u hu).1
  have hfund0 := fundingTotal_nonneg hfund
  have hspent : call.spent = call.utxo.value.toNat + fundingTotal call.funding := rfl
  have hspent_le := hrange.spent
  have hseed : call.seed = call.spent := by
    rw [seed, isStateAndReceipt_of_fixedFee hreq, hspent]
    exact add_comm ..
  have hconserves : call.spent = outTotal tx.outputs + feeSats.toNat := by
    have hsum := seed_eq (by rw [hreq]; rfl) hok (by omega) (by omega)
    rw [hseed] at hsum
    rw [hsum, hreq]
    rfl
  refine ⟨hrange, fun o ho => ?_, hconserves, fun laps r hr => ?_, fun r hr => ?_, fun laps => ?_⟩
  · have ho' := satoshis_le_outTotal ho
    rw [UInt64.le_iff_toNat_le]
    omega
  · have hle := fundingTotal_take_le hfund laps
    have hnonneg := fundingTotal_nonneg fun u hu =>
      hfund u ((List.take_sublist laps call.funding).subset hu)
    rw [(addFunding_eq_ok hr).2]
    simp only [UInt64.toNat_zero]
    omega
  · have htotal := (addFunding_eq_ok hr).2
    rw [UInt64.toNat_add]
    simp only [UInt64.toNat_zero] at htotal
    push_cast
    omega
  · have hle := (outTotal_take_le (tx.outputs.take call.pinned) laps).trans
      (outTotal_take_le tx.outputs call.pinned)
    rw [sum_toNat, Nat.mod_eq_of_lt (by omega)]

section Examples

def exampleSlash (funding : List FundingUtxo) : BuilderCall :=
  .agentTeaSlashValidator exampleUtxo (Block.fill 33 2)
    ⟨funding, some exampleChange, true, 100, true⟩

theorem fixedFee_safe_iff_slash :
    ∃ tx, (exampleSlash exampleFunding).build codePrims = .ok tx
    ∧ (exampleSlash exampleFunding).FixedFeeSafe 100 tx := by
  obtain ⟨tx, hok, -⟩ : ∃ tx, (exampleSlash exampleFunding).build codePrims = .ok tx
      ∧ tx.outputs.length = 3 := by decide +kernel
  have hrange : (exampleSlash exampleFunding).InRange :=
    ⟨by decide, by decide, by decide⟩
  have hreq : (exampleSlash exampleFunding).request = .fixedFee exampleChange 100 := rfl
  exact ⟨tx, hok, (fixedFee_safe_iff hreq hok).2 hrange⟩

def exampleWrap : BuilderCall :=
  exampleSlash [⟨List.replicate 64 50, 0, 2 ^ 63 - 1⟩, ⟨List.replicate 64 50, 1, 2 ^ 63 - 1⟩,
    ⟨List.replicate 64 50, 2, 5000⟩]

/-- Two funding outputs of 2⁶³ - 1 satoshis and one of 5,000: the totals wrap and the call is
accepted. -/
theorem fixedFee_wraps : ∃ tx, exampleWrap.build codePrims = .ok tx
    ∧ outTotal tx.outputs = 5898 ∧ ¬exampleWrap.FixedFeeSafe 100 tx := by
  obtain ⟨tx, hok, hout⟩ : ∃ tx, exampleWrap.build codePrims = .ok tx
      ∧ outTotal tx.outputs = 5898 := by decide +kernel
  exact ⟨tx, hok, hout, fun hsafe => absurd hsafe.inRange.spent (by decide)⟩

end Examples

end BuilderCall

end BonsaiChain
