import BonsaiChain.Lib.Results
import BonsaiChain.TxBuilders

/-!
# Change settlement and the inputs of a builder

What a settled change output leaves of the total it was seeded with, and which inputs a builder has
added with which total. Everything is in exact arithmetic.
-/

namespace BonsaiChain

open Lib

/-- The satoshis of the outputs. -/
def outTotal (os : List TxOut) : ℕ := (os.map (·.satoshis.toNat)).sum

@[simp] theorem outTotal_nil : outTotal [] = 0 := rfl

@[simp] theorem outTotal_cons (o : TxOut) (os : List TxOut) :
    outTotal (o :: os) = o.satoshis.toNat + outTotal os := List.sum_cons

@[simp] theorem outTotal_append (os ps : List TxOut) :
    outTotal (os ++ ps) = outTotal os + outTotal ps := by
  simp [outTotal]

/-- The change output of a settled amount; an amount of 0 has none. -/
def changeOutputs (changeHash160 : Block 20) (change : UInt64) : List TxOut :=
  if change = 0 then [] else [⟨change, buildP2pkhScript changeHash160⟩]

@[simp] theorem outTotal_changeOutputs (h : Block 20) (change : UInt64) :
    outTotal (changeOutputs h change) = change.toNat := by
  unfold changeOutputs
  split_ifs with hc
  · subst hc
    rfl
  · simp

/-- The size of the transaction with a change output at its end. -/
def sizeWithChange (b : Tx) (changeHash160 : Block 20) : ℕ :=
  estimateSize (txBuilderAddOutput b (buildP2pkhScript changeHash160) 0)

section Settlement

theorem sumOutputs_eq_ok : ∀ {os : List TxOut} {acc s : UInt64}, acc ≤ bonsaiMaxMoney →
    sumOutputs acc os = .ok s → s.toNat = acc.toNat + outTotal os
  | [], acc, s, _, h => by
    obtain rfl : acc = s := by simpa [sumOutputs] using h
    simp
  | o :: os, acc, s, hacc, h => by
    simp only [sumOutputs, error_ite_eq_ok, not_or, UInt64.not_lt, gt_iff_lt] at h
    obtain ⟨⟨ho, hroom⟩, h⟩ := h
    have hle : acc.toNat ≤ bonsaiMaxMoney.toNat := UInt64.le_iff_toNat_le.mp hacc
    have hroom' := UInt64.le_iff_toNat_le.mp hroom
    rw [UInt64.toNat_sub_of_le _ _ hacc] at hroom'
    have hmax : bonsaiMaxMoney.toNat = 2100000000000000 := rfl
    have hadd : (acc + o.satoshis).toNat = acc.toNat + o.satoshis.toNat := by
      rw [UInt64.toNat_add, Nat.mod_eq_of_lt]
      omega
    have hacc' : acc + o.satoshis ≤ bonsaiMaxMoney := by
      rw [UInt64.le_iff_toNat_le, hadd]
      omega
    have ih := sumOutputs_eq_ok hacc' h
    rw [ih, hadd, outTotal_cons]
    omega

/-- What is left of a total after the outputs and the fee. -/
theorem toNat_sub_sub {total outSum fee : UInt64} (h1 : ¬outSum > total)
    (h2 : ¬total - outSum < fee) :
    total.toNat = outSum.toNat + fee.toNat + (total - outSum - fee).toNat := by
  have h1' := UInt64.le_iff_toNat_le.mp (UInt64.not_lt.mp h1)
  have h2' := UInt64.le_iff_toNat_le.mp (UInt64.not_lt.mp h2)
  rw [UInt64.toNat_sub_of_le _ _ (UInt64.not_lt.mp h2)]
  rw [UInt64.toNat_sub_of_le _ _ (UInt64.not_lt.mp h1)] at h2' ⊢
  omega

theorem not_one_le_iff {change : UInt64} : ¬change ≥ 1 ↔ change = 0 := by
  rw [ge_iff_le, UInt64.le_iff_toNat_le, ← UInt64.toNat_inj]
  simp only [UInt64.reduceToNat]
  omega

/-- A settled change output and the outputs before it. -/
theorem ite_change {b : Tx} {h : Block 20} {change : UInt64} :
    (if change ≥ 1 then
        { b with outputs := b.outputs ++ [⟨change, buildP2pkhScript h⟩] }
      else b) = { b with outputs := b.outputs ++ changeOutputs h change } := by
  unfold changeOutputs
  by_cases hc : change = 0
  · subst hc
    simp
  · have : change ≥ 1 := by
      by_contra hlt
      exact hc (not_one_le_iff.mp hlt)
    simp [this, hc]

/-- What a settlement leaves as the change, and what it does with the amount. -/
theorem updateChangeOutput_eq_ok {P : Prims} {tx tx' : Tx} {i : ℕ} {rate : UInt64}
    (h : updateChangeOutput P tx i rate = .ok tx') :
    ∃ change amount, tx.outputs[i]? = some change ∧ ¬change.satoshis > bonsaiMaxMoney
      ∧ change.satoshis.toNat = outTotal (tx.outputs.eraseIdx i)
          + (P.feeForSize (estimateSize tx) rate).toNat + amount.toNat
      ∧ tx' = if amount ≥ 1 then
          { tx with outputs := tx.outputs.set i { change with satoshis := amount } }
        else { tx with outputs := tx.outputs.eraseIdx i } := by
  unfold updateChangeOutput at h
  rcases hchange : tx.outputs[i]? with _ | change
  · simp [hchange] at h
  simp only [hchange, error_ite_eq_ok, bind_eq_ok, guard_eq_ok] at h
  obtain ⟨hmax, outSum, hsum, hle, hfee, h⟩ := h
  have hsum' := sumOutputs_eq_ok (show (0 : UInt64) ≤ bonsaiMaxMoney by decide) hsum
  refine ⟨change, change.satoshis - outSum - P.feeForSize (estimateSize tx) rate, rfl, hmax, ?_, ?_⟩
  · rw [toNat_sub_sub hle hfee, hsum']
    simp
  · split_ifs at h ⊢
    · exact (pure_eq_ok.mp h).symm
    · exact (pure_eq_ok.mp h).symm

theorem appendChange_eq_ok {P : Prims} {b b' : Tx} {h : Block 20} {total rate : UInt64}
    (hok : appendChange P b h total rate = .ok b') :
    ∃ change, total.toNat = outTotal b.outputs + (P.feeForSize (sizeWithChange b h) rate).toNat
          + change.toNat
      ∧ b' = { b with outputs := b.outputs ++ changeOutputs h change } := by
  have hsize : estimateSize { b with outputs := b.outputs ++ [⟨total, buildP2pkhScript h⟩] }
      = sizeWithChange b h := by
    simp [sizeWithChange, estimateSize, txBuilderAddOutput, outputSize]
  simp only [appendChange, txBuilderAddOutput, List.length_append, List.length_singleton,
    Nat.add_sub_cancel] at hok
  obtain ⟨seeded, change, hseeded, -, htotal, rfl⟩ := updateChangeOutput_eq_ok hok
  simp only [List.getElem?_concat_length, Option.some.injEq] at hseeded
  subst hseeded
  simp only [List.eraseIdx_append_of_length_le (le_refl _), Nat.sub_self, List.eraseIdx_cons_zero,
    List.append_nil, hsize, List.set_append_right _ _ (le_refl _), List.set_cons_zero]
    at htotal ⊢
  exact ⟨change, htotal, ite_change⟩

end Settlement

section Inputs

/-- The input that spends a funding output. -/
def fundingInput (u : FundingUtxo) : TxIn := ⟨hexToLower u.txId, u.outputIndex, [], 0xffffffff⟩

/-- The input that spends the contract output. -/
def contractInput (utxo : ContractUtxo) (sequence : UInt32) : TxIn :=
  ⟨hexToLower utxo.txidDisplay, utxo.vout, [], sequence⟩

/-- The satoshis of the funding outputs. -/
def fundingTotal (funding : List FundingUtxo) : ℤ := (funding.map (·.satoshis)).sum

theorem txBuilderAddInput_eq_ok {b b' : Tx} {txid : CString} {vout sequence : UInt32}
    {scriptSig : Bytes} (h : txBuilderAddInput b txid vout scriptSig sequence = .ok b') :
    isHexLen txid 32
      ∧ b' = { b with inputs := b.inputs ++ [⟨hexToLower txid, vout, scriptSig, sequence⟩] } := by
  unfold txBuilderAddInput at h
  split_ifs at h with hhex
  exact ⟨hhex, (Except.ok.inj h).symm⟩

theorem u64OfInt_toNat (z : ℤ) : ((u64OfInt z).toNat : ℤ) = z % 2 ^ 64 := by
  unfold u64OfInt
  rw [UInt64.toNat_ofNat']
  omega

theorem toNat_toUInt64 {x : Int64} (h : 0 ≤ x.toInt) : (x.toUInt64.toNat : ℤ) = x.toInt := by
  rw [Int64.toNat_toUInt64_of_le (Int64.le_iff_toInt_le.2 h), Int64.toNatClampNeg,
    Int.toNat_of_nonneg h]

theorem addFunding_eq_ok :
    ∀ {funding : List FundingUtxo} {b : Tx} {total : UInt64} {r : Tx × UInt64},
    addFunding b funding total = .ok r →
      r.1 = { b with inputs := b.inputs ++ funding.map fundingInput }
        ∧ (r.2.toNat : ℤ) = (total.toNat + fundingTotal funding) % 2 ^ 64
  | [], b, total, r, h => by
    obtain rfl : (b, total) = r := by simpa [addFunding] using h
    have := total.toNat_lt
    refine ⟨by simp, ?_⟩
    simp only [fundingTotal, List.map_nil, List.sum_nil]
    omega
  | u :: us, b, total, r, h => by
    simp only [addFunding, bind_eq_ok] at h
    obtain ⟨b', hadd, h⟩ := h
    obtain ⟨-, rfl⟩ := txBuilderAddInput_eq_ok hadd
    obtain ⟨h1, h2⟩ := addFunding_eq_ok h
    refine ⟨by simp [h1, fundingInput], ?_⟩
    have hu := u64OfInt_toNat u.satoshis
    rw [h2, UInt64.toNat_add]
    simp only [fundingTotal, List.map_cons, List.sum_cons]
    push_cast
    omega

/-- The inputs of a builder and the funding total it counts. -/
theorem addInputs_eq_ok {b : Tx} {utxo : ContractUtxo} {sequence : UInt32}
    {funding : List FundingUtxo} {r : Tx × UInt64} (h : addInputs b utxo sequence funding = .ok r) :
    r.1 = { b with inputs := b.inputs ++ contractInput utxo sequence :: funding.map fundingInput }
      ∧ (r.2.toNat : ℤ) = fundingTotal funding % 2 ^ 64 := by
  simp only [addInputs, bind_eq_ok] at h
  obtain ⟨b', hadd, h⟩ := h
  obtain ⟨-, rfl⟩ := txBuilderAddInput_eq_ok hadd
  obtain ⟨h1, h2⟩ := addFunding_eq_ok h
  refine ⟨by simp [h1, contractInput], ?_⟩
  simpa using h2

end Inputs

end BonsaiChain
