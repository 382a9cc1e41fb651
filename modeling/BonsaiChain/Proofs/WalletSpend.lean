import BonsaiChain.Proofs.ChangeSettlement
import BonsaiChain.Proofs.Tx
import BonsaiChain.Proofs.TxBuilders
import BonsaiChain.WalletSpend
import Mathlib.Algebra.Order.BigOperators.Group.List

/-!
# A wallet spend keeps its plan and every satoshi

What each stage of a spend answers, as conditions on its arguments. Signing changes only the
unlocking scripts and never makes one longer than its placeholder, so the fee settled before it
covers the signed size.
-/

namespace BonsaiChain

open Lib

namespace WalletSpend

section Money

variable {α : Type} {x : Except Err α} {a : α} {e : Err} {message : String}

@[simp] theorem orFail_eq_ok : orFail message x = .ok a ↔ x = .ok a := by
  unfold orFail bnsFail
  rcases x with e | b <;> simp

@[simp] theorem orFailWith_eq_ok : orFailWith e message x = .ok a ↔ x = .ok a := by
  unfold orFailWith bnsFail
  rcases x with e | b <;> simp

@[simp] theorem bnsFail_ne_ok : (bnsFail e message : Except (Err × CString) α) = .ok a ↔ False := by
  simp [bnsFail]

def maxMoney : ℕ := bonsaiMaxMoney.toNat

theorem addMoneyU64_eq_ok {t v r : UInt64} :
    addMoneyU64 t v = .ok r ↔ t.toNat + v.toNat ≤ maxMoney ∧ r.toNat = t.toNat + v.toNat := by
  have hmax : bonsaiMaxMoney.toNat = 2100000000000000 := rfl
  unfold addMoneyU64 maxMoney
  rw [error_ite_eq_ok, not_or, not_or]
  simp only [gt_iff_lt, UInt64.not_lt, UInt64.le_iff_toNat_le, Except.ok.injEq]
  constructor
  · rintro ⟨⟨ht, -, hroom⟩, rfl⟩
    rw [UInt64.toNat_sub_of_le _ _ (UInt64.le_iff_toNat_le.mpr ht)] at hroom
    refine ⟨by omega, ?_⟩
    rw [UInt64.toNat_add, Nat.mod_eq_of_lt (by omega)]
  · rintro ⟨hle, hr⟩
    have ht : t.toNat ≤ bonsaiMaxMoney.toNat := by omega
    rw [UInt64.toNat_sub_of_le _ _ (UInt64.le_iff_toNat_le.mpr ht)]
    refine ⟨⟨ht, by omega, by omega⟩, ?_⟩
    rw [← UInt64.toNat_inj, hr, UInt64.toNat_add, Nat.mod_eq_of_lt (by omega)]

theorem addMoneyI64_eq_ok {t r : UInt64} {v : ℤ} (hv : v < 2 ^ 63) :
    addMoneyI64 t v = .ok r ↔ 0 ≤ v ∧ t.toNat + v ≤ maxMoney ∧ (r.toNat : ℤ) = t.toNat + v := by
  have hu := u64OfInt_toNat v
  unfold addMoneyI64
  rw [error_ite_eq_ok, addMoneyU64_eq_ok, not_lt]
  refine and_congr_right fun h0 => ?_
  rw [Int.emod_eq_of_lt h0 (by omega)] at hu
  omega

end Money

section Select

/-- The value of the first outputs of a list. -/
def valueOf (n : ℕ) (us : List FundingUtxo) : ℤ := fundingTotal (us.take n)

theorem valueOf_zero (us : List FundingUtxo) : valueOf 0 us = 0 := rfl

theorem valueOf_succ (n : ℕ) (u : FundingUtxo) (us : List FundingUtxo) :
    valueOf (n + 1) (u :: us) = u.satoshis + valueOf n us := by
  simp [valueOf, fundingTotal]

theorem fundingTotal_nonneg {us : List FundingUtxo} (h : ∀ u ∈ us, 0 ≤ u.satoshis) :
    0 ≤ fundingTotal us :=
  List.sum_nonneg (by simpa using h)

theorem recipientTotal_eq_ok : ∀ {rs : List SpendRecipient} {t r : UInt64},
    t.toNat ≤ maxMoney → (recipientTotal t rs = .ok r ↔
      (∀ p ∈ rs, walletDustThreshold ≤ p.satoshis)
        ∧ t.toNat + (rs.map (·.satoshis.toNat)).sum ≤ maxMoney
        ∧ r.toNat = t.toNat + (rs.map (·.satoshis.toNat)).sum)
  | [], t, r, ht => by
    simp only [recipientTotal, Except.ok.injEq, ← UInt64.toNat_inj, List.map_nil, List.sum_nil]
    simp [eq_comm, ht]
  | p :: rs, t, r, ht => by
    have hdust : ¬p.satoshis < walletDustThreshold → ¬p.satoshis = 0 := by
      rintro h h0
      rw [h0] at h
      exact h (by decide)
    have hsplit : recipientTotal t (p :: rs) = .ok r ↔ ¬p.satoshis < walletDustThreshold ∧
        ∃ t', addMoneyU64 t p.satoshis = .ok t' ∧ recipientTotal t' rs = .ok r := by
      rw [recipientTotal]
      by_cases h0 : p.satoshis = 0
      · simp only [h0, if_true, bnsFail_ne_ok, false_iff, not_and]
        exact fun h => absurd (by decide) h
      by_cases hd : p.satoshis < walletDustThreshold
      · simp [h0, hd]
      · simp [h0, hd, bind_eq_ok]
    rw [hsplit, List.forall_mem_cons, List.map_cons, List.sum_cons, UInt64.not_lt]
    constructor
    · rintro ⟨hd, t', hadd, hrest⟩
      obtain ⟨hle, ht'⟩ := addMoneyU64_eq_ok.mp hadd
      obtain ⟨hall, hsum, hr⟩ := (recipientTotal_eq_ok (by omega)).mp hrest
      exact ⟨⟨hd, hall⟩, by omega, by omega⟩
    · rintro ⟨⟨hd, hall⟩, hsum, hr⟩
      have hmax : maxMoney = 2100000000000000 := rfl
      have hadd : (t + p.satoshis).toNat = t.toNat + p.satoshis.toNat := by
        rw [UInt64.toNat_add, Nat.mod_eq_of_lt (by omega)]
      exact ⟨hd, t + p.satoshis, addMoneyU64_eq_ok.mpr ⟨by omega, hadd⟩,
        (recipientTotal_eq_ok (by omega)).mpr ⟨hall, by omega, by omega⟩⟩

theorem sumFunding_eq_ok : ∀ {us : List FundingUtxo} {t r : UInt64}, t.toNat ≤ maxMoney →
    (∀ u ∈ us, u.satoshis < 2 ^ 63) → (sumFunding t us = .ok r ↔
      (∀ u ∈ us, 0 ≤ u.satoshis) ∧ t.toNat + fundingTotal us ≤ maxMoney
        ∧ (r.toNat : ℤ) = t.toNat + fundingTotal us)
  | [], t, r, ht, _ => by
    simp only [sumFunding, Except.ok.injEq, ← UInt64.toNat_inj, fundingTotal, List.map_nil,
      List.sum_nil, List.not_mem_nil, false_imp_iff, implies_true, true_and]
    omega
  | u :: us, t, r, ht, hus => by
    rw [List.forall_mem_cons] at hus ⊢
    simp only [sumFunding, bind_eq_ok, orFailWith_eq_ok, addMoneyI64_eq_ok hus.1]
    have hcons : fundingTotal (u :: us) = u.satoshis + fundingTotal us := List.sum_cons
    rw [hcons]
    have hmax : maxMoney = 2100000000000000 := rfl
    constructor
    · rintro ⟨t', ⟨h0, hle, ht'⟩, hrest⟩
      obtain ⟨hall, hsum, hr⟩ := (sumFunding_eq_ok (by omega) hus.2).mp hrest
      exact ⟨⟨h0, hall⟩, by omega, by omega⟩
    · rintro ⟨⟨h0, hall⟩, hsum, hr⟩
      have hnonneg := fundingTotal_nonneg hall
      obtain ⟨t', ht'⟩ : ∃ t' : UInt64, (t'.toNat : ℤ) = t.toNat + u.satoshis :=
        ⟨u64OfInt (t.toNat + u.satoshis), by rw [u64OfInt_toNat]; omega⟩
      exact ⟨t', ⟨h0, by omega, ht'⟩,
        (sumFunding_eq_ok (by omega) hus.2).mpr ⟨hall, by omega, by omega⟩⟩

variable {P : Prims} {rate totalRecip : UInt64} {nOut opretLen : ℕ}

/-- What selecting `n` outputs asks for: the recipients and the fee of the size by counts. -/
def estNeed (P : Prims) (rate totalRecip : UInt64) (nOut opretLen n : ℕ) : ℕ :=
  totalRecip.toNat + (feeFor P (estSizeByCounts n nOut opretLen) rate).toNat

/-- The selection takes `m` more outputs behind `k` outputs worth `running`. -/
structure Selects (need : ℕ → ℕ) (k : ℕ) (running : ℤ) (us : List FundingUtxo) (m : ℕ) : Prop where
  pos : 1 ≤ m
  le : m ≤ us.length
  nonneg : ∀ u ∈ us.take m, 0 ≤ u.satoshis
  inRange : running + valueOf m us ≤ maxMoney
  covers : need (k + m) ≤ running + valueOf m us
  before : ∀ j, 1 ≤ j → j < m → need (k + j) ≤ maxMoney ∧ running + valueOf j us < need (k + j)

theorem selects_one {need : ℕ → ℕ} {k : ℕ} {running : ℤ} {u : FundingUtxo} {us : List FundingUtxo}
    (h0 : 0 ≤ u.satoshis) (hle : running + u.satoshis ≤ maxMoney)
    (hneed : need (k + 1) ≤ running + u.satoshis) : Selects need k running (u :: us) 1 where
  pos := le_rfl
  le := by simp
  nonneg := by simpa using h0
  inRange := by simpa [valueOf_succ, valueOf_zero] using hle
  covers := by simpa [valueOf_succ, valueOf_zero] using hneed
  before j h1 hlt := absurd hlt (not_lt.mpr h1)

theorem selects_succ {need : ℕ → ℕ} {k m : ℕ} {running : ℤ} {u : FundingUtxo}
    {us : List FundingUtxo} (hm : 1 ≤ m) : Selects need k running (u :: us) (m + 1) ↔
      0 ≤ u.satoshis ∧ need (k + 1) ≤ maxMoney ∧ running + u.satoshis < need (k + 1)
        ∧ Selects need (k + 1) (running + u.satoshis) us m := by
  constructor
  · rintro ⟨-, hle, hnonneg, hrange, hcovers, hbefore⟩
    rw [List.take_succ_cons, List.forall_mem_cons] at hnonneg
    rw [valueOf_succ] at hrange hcovers
    have h1 := hbefore 1 le_rfl (by omega)
    rw [valueOf_succ, valueOf_zero, add_zero] at h1
    refine ⟨hnonneg.1, h1.1, h1.2, hm, by simpa using hle, hnonneg.2, by omega, ?_,
      fun j hj hlt => ?_⟩
    · rw [show k + 1 + m = k + (m + 1) by omega]
      omega
    · have hj' := hbefore (j + 1) (by omega) (by omega)
      rw [valueOf_succ] at hj'
      rw [show k + 1 + j = k + (j + 1) by omega]
      omega
  · rintro ⟨h0, hrange, hlt, h⟩
    have hcovers := h.covers
    have hinRange := h.inRange
    rw [show k + 1 + m = k + (m + 1) by omega] at hcovers
    refine ⟨by omega, by simpa using h.le, ?_, ?_, ?_, fun j hj hjm => ?_⟩
    · rw [List.take_succ_cons, List.forall_mem_cons]
      exact ⟨h0, h.nonneg⟩
    · rw [valueOf_succ]
      omega
    · rw [valueOf_succ]
      omega
    · rcases j with _ | _ | j
      · omega
      · rw [valueOf_succ, valueOf_zero, add_zero]
        exact ⟨hrange, hlt⟩
      · have hj' := h.before (j + 1) (by omega) (by omega)
        rw [show k + 1 + (j + 1) = k + (j + 1 + 1) by omega] at hj'
        rw [valueOf_succ]
        omega

theorem Selects.not_nil {need : ℕ → ℕ} {k m : ℕ} {running : ℤ} (h : Selects need k running [] m) :
    False := by
  have hle := h.le
  have hpos := h.pos
  simp only [List.length_nil] at hle
  omega

/-- The selection stops at the first prefix that covers its estimate. -/
theorem selectFunding_eq_ok : ∀ {us : List FundingUtxo} {k n : ℕ} {t r : UInt64},
    t.toNat ≤ maxMoney → (∀ u ∈ us, u.satoshis < 2 ^ 63) →
      (selectFunding P rate totalRecip nOut opretLen k t us = .ok (n, r) ↔
        ∃ m, Selects (estNeed P rate totalRecip nOut opretLen) k t.toNat us m ∧ n = k + m
          ∧ (r.toNat : ℤ) = t.toNat + valueOf m us)
  | [], k, n, t, r, _, _ => by
    simp only [selectFunding, bnsFail_ne_ok, false_iff, not_exists, not_and]
    exact fun m h => h.not_nil.elim
  | u :: us, k, n, t, r, ht, hus => by
    rw [List.forall_mem_cons] at hus
    have hmax : maxMoney = 2100000000000000 := rfl
    simp only [selectFunding, bind_eq_ok, orFailWith_eq_ok, addMoneyI64_eq_ok hus.1, moneySum2,
      addMoneyU64_eq_ok]
    constructor
    · rintro ⟨t', ⟨h0, hle, ht'⟩, need, ⟨hneedle, hneed⟩, h⟩
      change _ = estNeed P rate totalRecip nOut opretLen (k + 1) at hneed
      change estNeed P rate totalRecip nOut opretLen (k + 1) ≤ _ at hneedle
      by_cases hcov : t' ≥ need
      · rw [if_pos hcov, pure_eq_ok, Prod.mk.injEq] at h
        rw [ge_iff_le, UInt64.le_iff_toNat_le] at hcov
        obtain ⟨rfl, rfl⟩ := h
        refine ⟨1, selects_one h0 (by omega) (by omega), rfl, ?_⟩
        rw [valueOf_succ, valueOf_zero]
        omega
      · rw [if_neg hcov] at h
        rw [ge_iff_le, UInt64.le_iff_toNat_le] at hcov
        obtain ⟨m, hsel, rfl, hr⟩ := (selectFunding_eq_ok (by omega) hus.2).mp h
        rw [ht'] at hsel hr
        refine ⟨m + 1, (selects_succ hsel.pos).mpr ⟨h0, hneedle, by omega, hsel⟩, by omega, ?_⟩
        rw [valueOf_succ]
        omega
    · rintro ⟨m, hsel, rfl, hr⟩
      have hpos := hsel.pos
      have hrange := hsel.inRange
      have hcovers := hsel.covers
      obtain ⟨m, rfl⟩ : ∃ m', m = m' + 1 := ⟨m - 1, by omega⟩
      rw [valueOf_succ] at hr hrange hcovers
      have hnonneg := hsel.nonneg
      rw [List.take_succ_cons, List.forall_mem_cons] at hnonneg
      have h0 := hnonneg.1
      have hvalue : 0 ≤ valueOf m us := fundingTotal_nonneg hnonneg.2
      obtain ⟨t', ht'⟩ : ∃ t' : UInt64, (t'.toNat : ℤ) = t.toNat + u.satoshis :=
        ⟨u64OfInt (t.toNat + u.satoshis), by rw [u64OfInt_toNat]; omega⟩
      have hneedle : estNeed P rate totalRecip nOut opretLen (k + 1) ≤ maxMoney := by
        by_cases hm : 1 ≤ m
        · exact ((selects_succ hm).mp hsel).2.1
        · obtain rfl : m = 0 := by omega
          rw [zero_add] at hcovers
          omega
      obtain ⟨need, hneed⟩ : ∃ need : UInt64,
          need.toNat = estNeed P rate totalRecip nOut opretLen (k + 1) :=
        ⟨UInt64.ofNat (estNeed P rate totalRecip nOut opretLen (k + 1)), by
          rw [UInt64.toNat_ofNat', Nat.mod_eq_of_lt (by omega)]⟩
      refine ⟨t', ⟨h0, by omega, ht'⟩, need, ⟨hneedle, hneed⟩, ?_⟩
      have hcov : t' ≥ need ↔ need.toNat ≤ t'.toNat := UInt64.le_iff_toNat_le
      by_cases hm : 1 ≤ m
      · obtain ⟨-, -, hlt, hsel'⟩ := (selects_succ hm).mp hsel
        rw [if_neg (by rw [hcov]; omega), show k + (m + 1) = k + 1 + m by omega,
          selectFunding_eq_ok (by omega) hus.2]
        exact ⟨m, by rwa [ht'], rfl, by omega⟩
      · obtain rfl : m = 0 := by omega
        rw [valueOf_zero] at hr hcovers
        rw [zero_add] at hcovers
        rw [if_pos (by rw [hcov]; omega), pure_eq_ok, Prod.mk.injEq, ← UInt64.toNat_inj]
        exact ⟨rfl, by omega⟩

end Select

section Build

variable {P : Prims} {net : BsvNetwork} {b b' : Tx}

/-- The output pays the address. -/
def PaysTo (P : Prims) (net : BsvNetwork) (address : CString) (satoshis : UInt64) (o : TxOut) :
    Prop :=
  ∃ h, addrToH160 P net address = .ok h ∧ o = ⟨satoshis, buildP2pkhScript h⟩

def dataOutputs (spk : Option Bytes) : List TxOut := spk.toList.map fun s => ⟨0, s⟩

theorem addSelected_eq_ok : ∀ {us : List FundingUtxo} {b b' : Tx}, addSelected b us = .ok b' ↔
    (∀ u ∈ us, isHexLen u.txId 32 = true)
      ∧ b' = { b with inputs := b.inputs ++ us.map fundingInput }
  | [], b, b' => by
    simp only [addSelected, Except.ok.injEq, List.not_mem_nil, false_imp_iff, implies_true,
      true_and,
      List.map_nil, List.append_nil]
    exact eq_comm
  | u :: us, b, b' => by
    simp only [addSelected, bind_eq_ok, orFail_eq_ok, List.forall_mem_cons, txBuilderAddInput]
    constructor
    · rintro ⟨b₁, hadd, h⟩
      split_ifs at hadd with hhex
      obtain rfl := Except.ok.inj hadd
      obtain ⟨hall, rfl⟩ := addSelected_eq_ok.mp h
      exact ⟨⟨hhex, hall⟩, by simp [fundingInput]⟩
    · rintro ⟨⟨hhex, hall⟩, rfl⟩
      rw [if_pos hhex]
      exact ⟨_, rfl, addSelected_eq_ok.mpr ⟨hall, by simp [fundingInput]⟩⟩

theorem addP2pkhOutput_eq_ok {message : String} {address : CString} {satoshis : UInt64} :
    addP2pkhOutput P net message b address satoshis = .ok b' ↔
      ∃ o, PaysTo P net address satoshis o ∧ b' = { b with outputs := b.outputs ++ [o] } := by
  simp only [addP2pkhOutput, bind_eq_ok, orFail_eq_ok, pure_eq_ok, PaysTo, txBuilderAddOutput]
  constructor
  · rintro ⟨h, haddr, rfl⟩
    exact ⟨_, ⟨h, haddr, rfl⟩, rfl⟩
  · rintro ⟨_, ⟨h, haddr, rfl⟩, rfl⟩
    exact ⟨h, haddr, rfl⟩

/-- The recipients are paid in order, a sweep's one with an amount to come. -/
def PaysAll (P : Prims) (net : BsvNetwork) (sendAll : Bool) (rs : List SpendRecipient)
    (os : List TxOut) : Prop :=
  List.Forall₂ (fun r o => PaysTo P net r.address (if sendAll then 0 else r.satoshis) o) rs os

theorem addRecipients_eq_ok {sendAll : Bool} : ∀ {rs : List SpendRecipient} {b b' : Tx},
    addRecipients P net sendAll b rs = .ok b' ↔
      ∃ os, PaysAll P net sendAll rs os ∧ b' = { b with outputs := b.outputs ++ os }
  | [], b, b' => by
    simp only [addRecipients, Except.ok.injEq, PaysAll, List.forall₂_nil_left_iff, exists_eq_left,
      List.append_nil]
    exact eq_comm
  | r :: rs, b, b' => by
    simp only [addRecipients, bind_eq_ok, addP2pkhOutput_eq_ok]
    constructor
    · rintro ⟨_, ⟨o, ho, rfl⟩, h⟩
      obtain ⟨os, hos, rfl⟩ := addRecipients_eq_ok.mp h
      exact ⟨o :: os, .cons ho hos, by simp⟩
    · rintro ⟨_, hall, rfl⟩
      cases hall with
      | @cons _ o _ os ho hos =>
        exact ⟨_, ⟨o, ho, rfl⟩, addRecipients_eq_ok.mpr ⟨os, hos, by simp⟩⟩

/-- The outputs behind the data output before the fee is settled. -/
def ChangeSlot (P : Prims) (net : BsvNetwork) (fundingAddress : CString) (plan : SpendPlan)
    (cs : List TxOut) : Prop :=
  if plan.sendAll then cs = []
  else ∃ o, PaysTo P net (plan.changeAddr fundingAddress) 0 o ∧ cs = [o]

theorem changeSlot_iff {fundingAddress : CString} {plan : SpendPlan} {cs : List TxOut}
    (hsweep : plan.sendAll = false) : ChangeSlot P net fundingAddress plan cs ↔
      ∃ h, addrToH160 P net (plan.changeAddr fundingAddress) = .ok h
        ∧ cs = [⟨0, buildP2pkhScript h⟩] := by
  unfold ChangeSlot
  rw [if_neg (by simp [hsweep])]
  constructor
  · rintro ⟨o, ⟨h, haddr, rfl⟩, rfl⟩
    exact ⟨h, haddr, rfl⟩
  · rintro ⟨h, haddr, rfl⟩
    exact ⟨_, ⟨h, haddr, rfl⟩, rfl⟩

theorem buildUnsigned_eq_ok {fundingAddress : CString} {plan : SpendPlan} {spk : Option Bytes}
    {us : List FundingUtxo} : buildUnsigned P net fundingAddress plan spk us = .ok b' ↔
      (∀ u ∈ us, isHexLen u.txId 32 = true) ∧ ∃ os cs, PaysAll P net plan.sendAll plan.recipients os
        ∧ ChangeSlot P net fundingAddress plan cs
        ∧ b' = ⟨1, us.map fundingInput, os ++ dataOutputs spk ++ cs, 0⟩ := by
  have hdata : ∀ b : Tx,
      addOpReturn b spk = { b with outputs := b.outputs ++ dataOutputs spk } := by
    intro b
    rcases spk with _ | spk
    · simp [addOpReturn, dataOutputs]
    · simp [addOpReturn, dataOutputs, txBuilderAddOutput]
  simp only [buildUnsigned, bind_eq_ok, addSelected_eq_ok, addRecipients_eq_ok, hdata, ChangeSlot]
  constructor
  · rintro ⟨_, ⟨hhex, rfl⟩, _, ⟨os, hos, rfl⟩, h⟩
    refine ⟨hhex, os, ?_⟩
    split_ifs at h ⊢ with hsweep
    · obtain rfl := pure_eq_ok.mp h
      exact ⟨[], hos, rfl, by simp [txBuilderInit]⟩
    · obtain ⟨o, ho, rfl⟩ := addP2pkhOutput_eq_ok.mp h
      exact ⟨[o], hos, ⟨o, ho, rfl⟩, by simp [txBuilderInit]⟩
  · rintro ⟨hhex, os, cs, hos, hcs, rfl⟩
    refine ⟨_, ⟨hhex, rfl⟩, _, ⟨os, hos, rfl⟩, ?_⟩
    split_ifs at hcs ⊢ with hsweep
    · subst hcs
      rw [pure_eq_ok]
      simp [txBuilderInit]
    · obtain ⟨o, ho, rfl⟩ := hcs
      exact addP2pkhOutput_eq_ok.mpr ⟨o, ho, by simp [txBuilderInit]⟩

end Build

section Sign

variable {P : Prims} {key : EcdsaKey} {pub : Block 33} {scriptCode : Bytes}

/-- Only the unlocking scripts may differ, and none is longer than its placeholder. -/
structure SignedAs (tx tx' : Tx) : Prop where
  version : tx'.version = tx.version
  outputs : tx'.outputs = tx.outputs
  locktime : tx'.locktime = tx.locktime
  inputs : List.Forall₂ (fun i i' => { i' with scriptSig := [] } = { i with scriptSig := [] }
    ∧ i'.scriptSig.length ≤ walletP2pkhScriptsigMax) tx.inputs tx'.inputs

theorem p2pkhScriptSig_length (der : Bytes) (pub : Block 33) :
    (p2pkhScriptSig der pub).length = der.length + 36 := by
  obtain ⟨pub, hpub⟩ := pub
  simp [p2pkhScriptSig, hpub]

theorem signedAs_self {tx : Tx}
    (h : ∀ i ∈ tx.inputs, i.scriptSig.length = walletP2pkhScriptsigMax) : SignedAs tx tx where
  version := rfl
  outputs := rfl
  locktime := rfl
  inputs := List.forall₂_same.mpr fun i hi => ⟨rfl, (h i hi).le⟩

theorem forall₂_modify {α β : Type} {R : α → β → Prop} {f : β → β}
    (hf : ∀ a b, R a b → R a (f b)) : ∀ {as : List α} {bs : List β} (k : ℕ),
      List.Forall₂ R as bs → List.Forall₂ R as (bs.modify k f)
  | _, _, _, .nil => by simp
  | _, _, 0, .cons h t => .cons (hf _ _ h) t
  | _, _, k + 1, .cons h t => .cons h (forall₂_modify hf k t)

theorem signSelected_signedAs
    (hkey : ∀ digest der, key.signLowS digest = .ok der → der.length ≤ 72) :
    ∀ {us : List FundingUtxo} {k : ℕ} {tx₀ tx tx' : Tx}, SignedAs tx₀ tx →
      signSelected P key pub scriptCode tx k us = .ok tx' → SignedAs tx₀ tx'
  | [], k, tx₀, tx, tx', h, hsign => by
    obtain rfl := Except.ok.inj hsign
    exact h
  | u :: us, k, tx₀, tx, tx', h, hsign => by
    simp only [signSelected, signP2pkhInput, bind_eq_ok, orFail_eq_ok, pure_eq_ok] at hsign
    obtain ⟨_, ⟨digest, -, der, hder, rfl⟩, hsign⟩ := hsign
    have hlen : (p2pkhScriptSig der pub).length ≤ walletP2pkhScriptsigMax := by
      have := hkey digest der hder
      rw [p2pkhScriptSig_length]
      unfold walletP2pkhScriptsigMax
      omega
    have hstep : SignedAs tx₀ { tx with inputs := tx.inputs.modify k fun i =>
        { i with scriptSig := p2pkhScriptSig der pub } } :=
      ⟨h.version, h.outputs, h.locktime, forall₂_modify (fun _ _ hi => ⟨hi.1, hlen⟩) k h.inputs⟩
    exact signSelected_signedAs hkey hstep hsign

end Sign

section Size

theorem writeVarint_length_mono {m n : ℕ} (h : m ≤ n) :
    (writeVarint m).length ≤ (writeVarint n).length := by
  unfold writeVarint
  split_ifs <;> simp <;> omega

theorem inputSize_of_lt {i : TxIn} (h : i.scriptSig.length < 0xfd) :
    inputSize i = 41 + i.scriptSig.length := by
  unfold inputSize writeVarint
  rw [if_pos h, List.length_singleton]
  omega

/-- Signing never makes a transaction larger than its placeholders do. -/
theorem SignedAs.estimateSize_le {tx tx' : Tx} (h : SignedAs tx tx')
    (hplace : ∀ i ∈ tx.inputs, i.scriptSig.length = walletP2pkhScriptsigMax) :
    estimateSize tx' ≤ estimateSize tx := by
  have hsum : ∀ {is is' : List TxIn}, (∀ i ∈ is, i.scriptSig.length = walletP2pkhScriptsigMax) →
      List.Forall₂ (fun i i' : TxIn => { i' with scriptSig := [] } = { i with scriptSig := [] }
        ∧ i'.scriptSig.length ≤ walletP2pkhScriptsigMax) is is' →
      (is'.map inputSize).sum ≤ (is.map inputSize).sum := by
    intro is is' hall hrel
    induction hrel with
    | nil => exact le_rfl
    | @cons i i' is is' hi _ ih =>
      rw [List.forall_mem_cons] at hall
      have h1 := hall.1
      have h2 := hi.2
      unfold walletP2pkhScriptsigMax at h1 h2
      rw [List.map_cons, List.map_cons, List.sum_cons, List.sum_cons, inputSize_of_lt (by omega),
        inputSize_of_lt (by omega)]
      have := ih hall.2
      omega
  have hinputs := hsum hplace h.inputs
  unfold estimateSize
  rw [h.outputs, h.inputs.length_eq]
  omega

theorem estimateSize_dropLast (tx : Tx) :
    estimateSize { tx with outputs := tx.outputs.dropLast } ≤ estimateSize tx := by
  have hlen := writeVarint_length_mono (List.dropLast_sublist tx.outputs).length_le
  have hsum : (tx.outputs.dropLast.map outputSize).sum ≤ (tx.outputs.map outputSize).sum :=
    ((List.dropLast_sublist tx.outputs).map outputSize).sum_le_sum fun _ _ => Nat.zero_le _
  unfold estimateSize
  dsimp only
  omega

theorem txBytes_length {tx : Tx} (h : ∀ i ∈ tx.inputs, IsTxid i.prevTxidDisplay) :
    (txBytes tx).length = estimateSize tx := by
  have hin : (tx.inputs.map fun i => (txInBytes i).length) = tx.inputs.map inputSize := by
    refine List.map_congr_left fun i hi => ?_
    obtain ⟨bs, hbs, hdisp⟩ := h i hi
    simp only [txInBytes, hdisp, hexDecode_hexEncode, Except.toOption, Option.getD_some,
      List.length_append, List.length_reverse, u32le_length, printSized, hbs, inputSize]
    omega
  have hout : (tx.outputs.map fun o => (printTxOut o).length) = tx.outputs.map outputSize := by
    refine List.map_congr_left fun o _ => ?_
    simp only [printTxOut, List.length_append, u64le_length, printSized, outputSize]
    omega
  unfold txBytes estimateSize
  simp only [List.length_append, List.length_flatMap, u32le_length, hin, hout]
  omega

end Size

section Settle

variable {b : Tx} {runningIn totalRecip fee : UInt64} {sizeBytes : ℕ} {st : Settled}

theorem toNat_sub {a b : UInt64} (h : b.toNat ≤ a.toNat) : (a - b).toNat = a.toNat - b.toNat :=
  UInt64.toNat_sub_of_le _ _ (UInt64.le_iff_toNat_le.mpr h)

theorem settleSweep_eq_ok {script : Bytes} {rest : List TxOut}
    (hb : b.outputs = ⟨0, script⟩ :: rest) (h : settleSweep b runningIn fee sizeBytes = .ok st) :
    st.tx = { b with outputs := ⟨st.totalOut, script⟩ :: rest } ∧ st.fee = fee ∧ st.change = 0
      ∧ st.totalOut = runningIn - fee ∧ runningIn.toNat = st.totalOut.toNat + fee.toNat
      ∧ walletDustThreshold ≤ st.totalOut := by
  unfold settleSweep at h
  split_ifs at h with hfail
  · exact absurd h (by simp)
  · rw [not_or, UInt64.not_lt, UInt64.not_le, UInt64.lt_iff_toNat_lt] at hfail
    obtain rfl := Except.ok.inj h
    refine ⟨?_, rfl, rfl, rfl, ?_, hfail.2⟩
    · simp only [setSatoshis, hb, List.modify_zero_cons]
    · show runningIn.toNat = (runningIn - fee).toNat + fee.toNat
      rw [toNat_sub hfail.1.le]
      omega

theorem modify_last {α : Type} (pre : List α) (a : α) (f : α → α) :
    (pre ++ [a]).modify ((pre ++ [a]).length - 1) f = pre ++ [f a] := by
  rw [List.length_append, List.length_singleton, Nat.add_sub_cancel]
  induction pre with
  | nil => simp
  | cons b pre ih => simp [ih]

theorem settleChange_eq_ok {script : Bytes} {pre : List TxOut}
    (hb : b.outputs = pre ++ [⟨0, script⟩])
    (h : settleChange b runningIn totalRecip fee sizeBytes = .ok st) :
    totalRecip.toNat + fee.toNat ≤ runningIn.toNat ∧ fee.toNat ≤ st.fee.toNat
      ∧ runningIn.toNat = st.totalOut.toNat + st.fee.toNat
      ∧ st.totalOut.toNat = totalRecip.toNat + st.change.toNat
      ∧ ((st.change = 0 ∧ st.tx = { b with outputs := pre })
        ∨ (walletDustThreshold ≤ st.change
          ∧ st.tx = { b with outputs := pre ++ [⟨st.change, script⟩] })) := by
  simp only [settleChange, bind_eq_ok, orFailWith_eq_ok, moneySum2, addMoneyU64_eq_ok] at h
  obtain ⟨need, ⟨hrange, hneed⟩, h⟩ := h
  split_ifs at h with hshort hdust
  · exact absurd h (by simp)
  · rw [UInt64.not_lt, UInt64.le_iff_toNat_le] at hshort
    obtain rfl := pure_eq_ok.mp h
    have hfee := toNat_sub (a := runningIn) (b := totalRecip) (by omega)
    refine ⟨by omega, ?_, ?_, rfl, .inl ⟨rfl, ?_⟩⟩
    · show fee.toNat ≤ (runningIn - totalRecip).toNat
      omega
    · show runningIn.toNat = totalRecip.toNat + (runningIn - totalRecip).toNat
      omega
    · rw [hb, List.dropLast_concat]
  · rw [UInt64.not_lt, UInt64.le_iff_toNat_le] at hshort
    obtain rfl := pure_eq_ok.mp h
    have hchange := toNat_sub (a := runningIn) (b := need) hshort
    have hout := toNat_sub (a := runningIn) (b := fee) (by omega)
    refine ⟨by omega, le_rfl, ?_, ?_, .inr ⟨UInt64.not_lt.mp hdust, ?_⟩⟩
    · show runningIn.toNat = (runningIn - fee).toNat + fee.toNat
      omega
    · show (runningIn - fee).toNat = totalRecip.toNat + (runningIn - need).toNat
      omega
    · simp only [setSatoshis, hb, modify_last]

theorem settleChange_of_covers (hle : totalRecip.toNat + fee.toNat ≤ runningIn.toNat)
    (hmax : runningIn.toNat ≤ maxMoney) :
    ∃ st, settleChange b runningIn totalRecip fee sizeBytes = .ok st := by
  have hmoney : maxMoney = 2100000000000000 := rfl
  have hsum : addMoneyU64 totalRecip fee = .ok (totalRecip + fee) := by
    rw [addMoneyU64_eq_ok, UInt64.toNat_add, Nat.mod_eq_of_lt (by omega)]
    exact ⟨by omega, rfl⟩
  have hneed : ¬runningIn < totalRecip + fee := by
    rw [UInt64.not_lt, UInt64.le_iff_toNat_le, UInt64.toNat_add, Nat.mod_eq_of_lt (by omega)]
    exact hle
  unfold settleChange moneySum2
  rw [hsum]
  simp only [orFailWith, bind, Except.bind, hneed, if_false]
  split_ifs <;> exact ⟨_, rfl⟩

end Settle

section Spend

variable {P : Prims} {net : BsvNetwork} {key : EcdsaKey} {fundingAddress : CString}
  {utxos : List FundingUtxo} {plan : SpendPlan} {out : SpendResult}

theorem checkPlan_eq_ok : checkPlan plan = .ok () ↔
    if plan.sendAll then plan.recipients.length = 1
    else plan.recipients ≠ [] ∨ plan.opReturn ≠ none := by
  unfold checkPlan
  split_ifs with hsweep hlen hnone
  · simp [hlen]
  · simpa using hlen
  · simpa using hnone
  · rw [List.length_eq_zero_iff, not_and_or] at hnone
    simpa using hnone

theorem selectUtxos_spec {totalRecip r : UInt64} {opretLen n : ℕ}
    (hus : ∀ u ∈ utxos, u.satoshis < 2 ^ 63)
    (h : selectUtxos P plan totalRecip opretLen utxos = .ok (n, r)) :
    n ≤ utxos.length ∧ (r.toNat : ℤ) = fundingTotal (utxos.take n)
      ∧ (plan.sendAll = true → n = utxos.length) := by
  have hzero : (0 : UInt64).toNat ≤ maxMoney := by decide
  unfold selectUtxos at h
  by_cases hsweep : plan.sendAll = true
  · rw [if_pos hsweep, bind_eq_ok] at h
    obtain ⟨t, hsum, h⟩ := h
    obtain ⟨-, -, ht⟩ := (sumFunding_eq_ok hzero hus).mp hsum
    split_ifs at h with hnil
    · exact absurd h (by simp)
    · obtain ⟨rfl, rfl⟩ := Prod.mk.inj (pure_eq_ok.mp h)
      rw [List.take_length]
      exact ⟨le_rfl, by simpa using ht, fun _ => rfl⟩
  · rw [if_neg hsweep] at h
    obtain ⟨m, hsel, rfl, hr⟩ := (selectFunding_eq_ok hzero hus).mp h
    rw [zero_add]
    exact ⟨hsel.le, by simpa [valueOf] using hr, fun h => absurd h hsweep⟩

def outpoint (u : FundingUtxo) : CString × UInt32 := (hexToLower u.txId, u.outputIndex)

def spentOutpoint (i : TxIn) : CString × UInt32 := (i.prevTxidDisplay, i.vout)

theorem map_eq_of_forall₂ {α β γ : Type} {R : α → β → Prop} {f : α → γ} {g : β → γ}
    (hR : ∀ a b, R a b → g b = f a) : ∀ {as : List α} {bs : List β}, List.Forall₂ R as bs →
      bs.map g = as.map f
  | _, _, .nil => rfl
  | _, _, .cons h t => by rw [List.map_cons, List.map_cons, hR _ _ h, map_eq_of_forall₂ hR t]

theorem SignedAs.spent {tx tx' : Tx} (h : SignedAs tx tx') :
    tx'.inputs.map spentOutpoint = tx.inputs.map spentOutpoint := by
  refine map_eq_of_forall₂ (fun i i' hi => ?_) h.inputs
  have hspent := congrArg spentOutpoint hi.1
  exact hspent

theorem SignedAs.isTxid {tx tx' : Tx} (h : SignedAs tx tx')
    (htxid : ∀ i ∈ tx.inputs, IsTxid i.prevTxidDisplay) :
    ∀ i ∈ tx'.inputs, IsTxid i.prevTxidDisplay := by
  intro i hi
  have hmem := List.mem_map_of_mem (f := spentOutpoint) hi
  rw [h.spent] at hmem
  obtain ⟨j, hj, heq⟩ := List.mem_map.mp hmem
  have hdisp : j.prevTxidDisplay = i.prevTxidDisplay := congrArg Prod.fst heq
  rw [← hdisp]
  exact htxid j hj

theorem placeholders_length {b : Tx} :
    ∀ i ∈ (installPlaceholders b).inputs, i.scriptSig.length = walletP2pkhScriptsigMax := by
  intro i hi
  obtain ⟨j, -, rfl⟩ := List.mem_map.mp hi
  exact List.length_replicate

theorem placeholders_isTxid {b : Tx} {us : List FundingUtxo}
    (hinputs : b.inputs = us.map fundingInput) (hus : ∀ u ∈ us, isHexLen u.txId 32 = true) :
    ∀ i ∈ (installPlaceholders b).inputs, IsTxid i.prevTxidDisplay := by
  intro i hi
  obtain ⟨j, hj, rfl⟩ := List.mem_map.mp hi
  rw [hinputs] at hj
  obtain ⟨u, hu, rfl⟩ := List.mem_map.mp hj
  obtain ⟨bs, hlen, hdec⟩ := isHexLen_iff.mp (hus u hu)
  exact ⟨bs, hlen, (hexEncode_of_hexDecode hdec).symm⟩

/-- What a spend says of itself is true of its transaction, which spends and pays what it was asked
to. -/
structure Faithful (P : Prims) (net : BsvNetwork) (fundingAddress : CString)
    (utxos : List FundingUtxo) (plan : SpendPlan) (out : SpendResult) (tx : Tx) : Prop where
  inputs : tx.inputs.map spentOutpoint = (utxos.take out.numInputs).map outpoint
  prefix_le : out.numInputs ≤ utxos.length
  sweep : plan.sendAll = true → out.numInputs = utxos.length
  distinct : (tx.inputs.map spentOutpoint).Nodup
  outputs : ∃ rs spk cs, tx.outputs = rs ++ dataOutputs spk ++ cs
    ∧ List.Forall₂ (fun r o => PaysTo P net r.address
        (if plan.sendAll then out.totalIn - out.fee else r.satoshis) o
        ∧ walletDustThreshold ≤ o.satoshis) plan.recipients rs
    ∧ plan.opReturn.mapM buildOpreturnScript = .ok spk
    ∧ ((out.change = 0 ∧ cs = [])
      ∨ (plan.sendAll = false ∧ walletDustThreshold ≤ out.change
        ∧ ∃ o, PaysTo P net (plan.changeAddr fundingAddress) out.change o ∧ cs = [o]))
  totalIn : (out.totalIn.toNat : ℤ) = fundingTotal (utxos.take out.numInputs)
  totalOut : out.totalOut.toNat = outTotal tx.outputs
  conserves : out.totalIn.toNat = out.totalOut.toNat + out.fee.toNat
  fee : ∀ raw, hexDecode out.rawHex = .ok raw → feeFor P raw.length plan.rate ≤ out.fee

theorem outTotal_dataOutputs (spk : Option Bytes) : outTotal (dataOutputs spk) = 0 := by
  rcases spk with _ | spk <;> rfl

theorem PaysAll.outTotal {rs : List SpendRecipient} {os : List TxOut}
    (h : PaysAll P net false rs os) : outTotal os = (rs.map (·.satoshis.toNat)).sum := by
  unfold BonsaiChain.outTotal
  refine congrArg List.sum (map_eq_of_forall₂ (fun r o ho => ?_) h)
  obtain ⟨_, -, rfl⟩ := ho
  rfl

theorem addMoney_zero_le : (0 : UInt64).toNat ≤ maxMoney := by decide

/-- The settled transaction pays the plan, and what is not paid is the fee. -/
structure SettledAs (P : Prims) (net : BsvNetwork) (fundingAddress : CString) (plan : SpendPlan)
    (spk : Option Bytes) (b : Tx) (totalIn : UInt64) (st : Settled) : Prop where
  inputs : st.tx.inputs = b.inputs
  outputs : ∃ rs cs, st.tx.outputs = rs ++ dataOutputs spk ++ cs
    ∧ List.Forall₂ (fun r o => PaysTo P net r.address
        (if plan.sendAll then totalIn - st.fee else r.satoshis) o
        ∧ walletDustThreshold ≤ o.satoshis) plan.recipients rs
    ∧ ((st.change = 0 ∧ cs = [])
      ∨ (plan.sendAll = false ∧ walletDustThreshold ≤ st.change
        ∧ ∃ o, PaysTo P net (plan.changeAddr fundingAddress) st.change o ∧ cs = [o]))
  totalOut : st.totalOut.toNat = outTotal st.tx.outputs
  conserves : totalIn.toNat = st.totalOut.toNat + st.fee.toNat
  size : estimateSize st.tx ≤ estimateSize b
  fee : feeFor P (estimateSize b) plan.rate ≤ st.fee

theorem settledAs_sweep {spk : Option Bytes} {us : List TxIn} {os : List TxOut} {totalIn : UInt64}
    {st : Settled} {b : Tx} (hsweep : plan.sendAll = true) (hone : plan.recipients.length = 1)
    (hos : PaysAll P net plan.sendAll plan.recipients os)
    (hb : b = ⟨1, us, os ++ dataOutputs spk, 0⟩)
    (h : settleSweep b totalIn (feeFor P (estimateSize b) plan.rate) (estimateSize b) = .ok st) :
    SettledAs P net fundingAddress plan spk b totalIn st := by
  obtain ⟨r, hr⟩ := List.length_eq_one_iff.mp hone
  rw [hr, hsweep] at hos
  obtain ⟨o, _, ⟨h160, haddr, rfl⟩, htail, rfl⟩ := List.forall₂_cons_left_iff.mp hos
  obtain rfl := List.forall₂_nil_left_iff.mp htail
  have hout : b.outputs = ⟨0, buildP2pkhScript h160⟩ :: dataOutputs spk := by rw [hb]; rfl
  obtain ⟨htx, hfee, hchange, hamount, hsum, hdust⟩ := settleSweep_eq_ok hout h
  refine ⟨by rw [htx],
    ⟨[⟨st.totalOut, buildP2pkhScript h160⟩], [], ?_, ?_, .inl ⟨hchange, rfl⟩⟩, ?_,
    ?_, ?_, ?_⟩
  · rw [htx, List.append_nil]
    rfl
  · rw [hr, hsweep, hfee]
    exact .cons ⟨⟨h160, haddr, by rw [if_pos rfl, hamount]⟩, hdust⟩ .nil
  · rw [htx, outTotal_cons, outTotal_dataOutputs, Nat.add_zero]
  · rw [hfee, hsum]
  · rw [htx]
    unfold estimateSize
    simp only [hout, List.length_cons, List.map_cons, outputSize]
    exact le_rfl
  · rw [hfee]
    exact UInt64.le_refl _

theorem settledAs_change {spk : Option Bytes} {us : List TxIn} {os cs : List TxOut}
    {totalIn totalRecip : UInt64} {st : Settled} {b : Tx} (hsweep : plan.sendAll = false)
    (hrecip : recipientTotal 0 plan.recipients = .ok totalRecip)
    (hos : PaysAll P net plan.sendAll plan.recipients os)
    (hcs : ChangeSlot P net fundingAddress plan cs)
    (hb : b = ⟨1, us, os ++ dataOutputs spk ++ cs, 0⟩)
    (h : settleChange b totalIn totalRecip (feeFor P (estimateSize b) plan.rate) (estimateSize b)
      = .ok st) : SettledAs P net fundingAddress plan spk b totalIn st := by
  obtain ⟨h160, haddr, rfl⟩ := (changeSlot_iff hsweep).mp hcs
  have hout : b.outputs = os ++ dataOutputs spk ++ [⟨0, buildP2pkhScript h160⟩] := by rw [hb]
  obtain ⟨-, hfee, hsum, htotal, hchange⟩ := settleChange_eq_ok hout h
  obtain ⟨hdust, -, hrs⟩ := (recipientTotal_eq_ok addMoney_zero_le).mp hrecip
  rw [hsweep] at hos
  have hpaid : List.Forall₂ (fun r o => PaysTo P net r.address
      (if plan.sendAll then totalIn - st.fee else r.satoshis) o
      ∧ walletDustThreshold ≤ o.satoshis) plan.recipients os := by
    rw [hsweep]
    refine ((List.forall₂_and_left _ _).mpr ⟨hdust, hos⟩).imp fun r o ⟨hr, ho⟩ => ⟨ho, ?_⟩
    obtain ⟨_, -, rfl⟩ := ho
    exact hr
  have hos' := PaysAll.outTotal hos
  have hzero : (0 : UInt64).toNat = 0 := rfl
  refine ⟨?_, ?_, ?_, hsum, ?_, UInt64.le_iff_toNat_le.mpr hfee⟩
  · rcases hchange with ⟨-, htx⟩ | ⟨-, htx⟩ <;> rw [htx]
  · rcases hchange with ⟨hzero, htx⟩ | ⟨hdust, htx⟩
    · exact ⟨os, [], by rw [htx, List.append_nil], hpaid, .inl ⟨hzero, rfl⟩⟩
    · exact ⟨os, [_], by rw [htx], hpaid, .inr ⟨hsweep, hdust, _, ⟨h160, haddr, rfl⟩, rfl⟩⟩
  · rcases hchange with ⟨hnone, htx⟩ | ⟨-, htx⟩
    · rw [htx, outTotal_append, outTotal_dataOutputs, hos', htotal, hrs, hnone]
      omega
    · rw [htx, outTotal_append, outTotal_append, outTotal_dataOutputs, hos', htotal, hrs,
        outTotal_cons, outTotal_nil]
      dsimp only
      omega
  · rcases hchange with ⟨-, htx⟩ | ⟨-, htx⟩
    · have hdrop := estimateSize_dropLast b
      rw [hout, List.dropLast_concat] at hdrop
      rw [htx]
      exact hdrop
    · rw [htx]
      unfold estimateSize
      simp only [hout, List.length_append, List.length_singleton, List.map_append, List.map_cons,
        outputSize]
      exact le_rfl

theorem settle_settledAs {spk : Option Bytes} {us : List TxIn} {os cs : List TxOut}
    {totalIn totalRecip : UInt64} {st : Settled} {b : Tx} (hcheck : checkPlan plan = .ok ())
    (hrecip : planTotal plan = .ok totalRecip)
    (hos : PaysAll P net plan.sendAll plan.recipients os)
    (hcs : ChangeSlot P net fundingAddress plan cs)
    (hb : b = ⟨1, us, os ++ dataOutputs spk ++ cs, 0⟩)
    (h : settle P plan b totalIn totalRecip = .ok st) :
    SettledAs P net fundingAddress plan spk b totalIn st := by
  unfold settle at h
  simp only [] at h
  split_ifs at h with hfee hsweep
  · exact absurd h (by simp)
  · rw [checkPlan_eq_ok, if_pos hsweep] at hcheck
    unfold ChangeSlot at hcs
    rw [if_pos hsweep] at hcs
    subst hcs
    rw [List.append_nil] at hb
    exact settledAs_sweep hsweep hcheck hos hb h
  · unfold planTotal at hrecip
    rw [if_neg hsweep] at hrecip
    exact settledAs_change (by simpa using hsweep) hrecip hos hcs hb h

/-- A wallet spend pays its plan, keeps every satoshi and pays the policy fee of its signed size. -/
theorem walletBuildSignedSpend_faithful
    (hkey : ∀ digest der, key.signLowS digest = .ok der → der.length ≤ 72)
    (hmono : ∀ rate m n, m ≤ n → P.feeForSize m rate ≤ P.feeForSize n rate)
    (hus : ∀ u ∈ utxos, u.satoshis < 2 ^ 63) (hdistinct : (utxos.map outpoint).Nodup)
    (h : walletBuildSignedSpend P net key fundingAddress utxos plan = .ok out) :
    ∃ tx, txDeserialize out.rawHex = .ok tx
      ∧ Faithful P net fundingAddress utxos plan out tx := by
  simp only [walletBuildSignedSpend, bind_eq_ok, orFail_eq_ok, pure_eq_ok] at h
  obtain ⟨⟨⟩, hcheck, pub, -, totalRecip, hrecip, spk, hspk, ⟨n, totalIn⟩, hselect, b₀, hb, st,
    hsettle, tx, hsign, raw, hraw, txid, -, rfl⟩ := h
  obtain ⟨hle, htotal, hall⟩ := selectUtxos_spec hus hselect
  obtain ⟨hhex, os, cs, hos, hcs, rfl⟩ := buildUnsigned_eq_ok.mp hb
  have hst := settle_settledAs hcheck hrecip hos hcs rfl hsettle
  have hplace : ∀ i ∈ st.tx.inputs, i.scriptSig.length = walletP2pkhScriptsigMax := by
    rw [hst.inputs]
    exact placeholders_length
  have hsigned := signSelected_signedAs hkey (signedAs_self hplace) hsign
  have hspent : tx.inputs.map spentOutpoint = (utxos.take n).map outpoint := by
    rw [hsigned.spent, hst.inputs]
    simp only [List.map_map]
    rfl
  have htxid : ∀ i ∈ tx.inputs, IsTxid i.prevTxidDisplay := by
    refine hsigned.isTxid ?_
    rw [hst.inputs]
    exact placeholders_isTxid rfl hhex
  obtain ⟨rfl, -⟩ := (txSerialize_eq_ok htxid).mp hraw
  refine ⟨tx, txDeserialize_txSerialize htxid hraw, hspent, hle, hall, ?_, ?_, htotal, ?_,
    hst.conserves, ?_⟩
  · rw [hspent]
    exact hdistinct.sublist ((List.take_sublist n utxos).map outpoint)
  · obtain ⟨rs, cs, houts, hrs, hchange⟩ := hst.outputs
    exact ⟨rs, spk, cs, by rw [hsigned.outputs, houts], hrs, hspk, hchange⟩
  · rw [hsigned.outputs]
    exact hst.totalOut
  · intro raw hdec
    rw [hexDecode_hexEncode] at hdec
    obtain rfl := Except.ok.inj hdec
    rw [txBytes_length htxid]
    have hsize := (hsigned.estimateSize_le hplace).trans hst.size
    exact UInt64.le_trans (hmono plan.rate _ _ hsize) hst.fee

/-- The public key of the secret 3. -/
def exampleSpendPubkey : Block 33 :=
  ⟨[0x02, 0xf9, 0x30, 0x8a, 0x01, 0x92, 0x58, 0xc3, 0x10, 0x49, 0x34, 0x4f, 0x85, 0xf8, 0x9d, 0x52,
     0x29, 0xb5, 0x31, 0xc8, 0x45, 0x83, 0x6f, 0x99, 0xb0, 0x86, 0x01, 0xf1, 0x13, 0xbc, 0xe0, 0x36,
     0xf9], rfl⟩

/-- The deterministic signatures of the secret 3 for the two inputs below, the second one for any
other digest. -/
def exampleSpendKey : EcdsaKey where
  pubkey := .ok exampleSpendPubkey
  signLowS digest := .ok <|
    if digest.1 = [0xdf, 0xc2, 0x86, 0xaf, 0x9b, 0x65, 0x8e, 0xaf, 0x4e, 0xeb, 0xc5, 0x50, 0xda,
        0x1b, 0xf3, 0x36, 0x0b, 0x3d, 0x2d, 0xb0, 0x55, 0x33, 0xa6, 0x24, 0xb4, 0x7b, 0x0e, 0x3f,
        0x7d, 0x46, 0xc0, 0x92] then
      [0x30, 0x44, 0x02, 0x20, 0x23, 0x11, 0x3f, 0x51, 0xf2, 0x88, 0x27, 0x20, 0x24, 0x48, 0x9c,
        0xc8, 0x08, 0x50, 0x17, 0x28, 0x40, 0xf9, 0xe4, 0x69, 0xdc, 0xb8, 0xfc, 0x2e, 0xd6, 0x58,
        0x00, 0x56, 0x2f, 0x11, 0xd5, 0x63, 0x02, 0x20, 0x2c, 0xa9, 0x8d, 0x5f, 0x03, 0x46, 0xb8,
        0x57, 0xae, 0x06, 0xca, 0xf9, 0x88, 0x4b, 0x14, 0x00, 0x7e, 0xbc, 0xe4, 0xdb, 0x63, 0x5d,
        0x6e, 0x76, 0x60, 0x55, 0x75, 0xf1, 0x2f, 0x11, 0xbb, 0xd5]
    else
      [0x30, 0x45, 0x02, 0x21, 0x00, 0xb3, 0x07, 0x28, 0xa1, 0xc5, 0xaf, 0xe0, 0x58, 0x44, 0x90,
        0x11, 0x4b, 0x35, 0xb8, 0xca, 0xd3, 0xc6, 0xf3, 0x6b, 0x01, 0xf1, 0x0f, 0x7c, 0xf9, 0xbe,
        0x82, 0xb8, 0xb1, 0x1c, 0xe0, 0xb6, 0xa3, 0x02, 0x20, 0x43, 0x61, 0x66, 0x09, 0xfe, 0x61,
        0x02, 0xbd, 0x3f, 0xde, 0x77, 0x6e, 0x5a, 0xc0, 0xab, 0xbf, 0x26, 0xc2, 0x21, 0x10, 0x34,
        0xd0, 0x81, 0x3d, 0x46, 0x98, 0x43, 0x60, 0x26, 0x05, 0x82, 0x33]

def exampleAddress : CString := ascii "1CUNEBjYrCn2y1SdiUMohaKUi4wpP326Lb"

/-- The address of the public key of the secret 2. -/
def examplePayee : CString := ascii "1cMh228HTCiwS8ZsaakH8A8wze1JR5ZsP"

def exampleUtxos (n : ℕ) : List FundingUtxo :=
  (List.range n).map fun i => ⟨List.replicate 64 50, UInt32.ofNat i, 1000⟩

def exampleSpendPlan (satoshis : UInt64) : SpendPlan :=
  ⟨[⟨examplePayee, satoshis⟩], none, none, 0, false⟩

theorem exampleSpendKey_length (digest : Block 32) (der : Bytes)
    (h : exampleSpendKey.signLowS digest = .ok der) : der.length ≤ 72 := by
  obtain rfl := Except.ok.inj h
  split_ifs <;> decide

/-- Two of the three outputs pay the payee, the fee of 19 satoshis and the change. -/
theorem walletBuildSignedSpend_faithful_pays :
    ∃ out tx, walletBuildSignedSpend codePrims .mainnet exampleSpendKey exampleAddress
        (exampleUtxos 3) (exampleSpendPlan 1200) = .ok out
      ∧ txDeserialize out.rawHex = .ok tx ∧ tx.outputs.map (·.satoshis) = [1200, 781]
      ∧ out.totalOut.toNat = outTotal tx.outputs := by
  obtain ⟨out, hout, hcheck⟩ : ∃ out, walletBuildSignedSpend codePrims .mainnet
      exampleSpendKey exampleAddress (exampleUtxos 3) (exampleSpendPlan 1200) = .ok out
      ∧ ((txDeserialize out.rawHex).map fun tx => tx.outputs.map (·.satoshis))
        = .ok [1200, 781] := by decide +kernel
  obtain ⟨tx, htx, hfaithful⟩ := walletBuildSignedSpend_faithful
    exampleSpendKey_length (fun rate _ _ => TxChange.feeForSize_mono rate) (by decide)
    (by decide +kernel) hout
  rw [htx] at hcheck
  exact ⟨out, tx, hout, htx, Except.ok.inj hcheck, hfaithful.totalOut⟩

end Spend

section Complete

/-- The locking script of the plan's data. -/
def dataSpk (plan : SpendPlan) : Option Bytes :=
  plan.opReturn.bind fun data => (buildOpreturnScript data).toOption

def planSum (plan : SpendPlan) : ℕ := (plan.recipients.map (·.satoshis.toNat)).sum

/-- The size of the transaction that spends `n` outputs, with the longest scriptSigs and the change
output. -/
def worstCaseSize (plan : SpendPlan) (n : ℕ) : ℕ :=
  8 + (writeVarint n).length + (writeVarint plan.nOutEst).length
    + n * (41 + walletP2pkhScriptsigMax)
    + (plan.recipients.length + 1) * 34 + ((dataOutputs (dataSpk plan)).map outputSize).sum

/-- The first `n` outputs pay for the recipients and the fee of the transaction that spends them. -/
def Funds (P : Prims) (plan : SpendPlan) (utxos : List FundingUtxo) (n : ℕ) : Prop :=
  1 ≤ n ∧ n ≤ utxos.length
    ∧ planSum plan + (feeFor P (worstCaseSize plan n) plan.rate).toNat ≤ valueOf n utxos

/-- The recipients and the fee of the size by counts. -/
def countedNeed (P : Prims) (plan : SpendPlan) (n : ℕ) : ℕ :=
  planSum plan + (feeFor P
    (estSizeByCounts n plan.nOutEst ((dataSpk plan).elim 0 List.length)) plan.rate).toNat

/-- The first `n` outputs cover the fee of the size by counts, no fewer do, and no fewer ask for
more than there is money. -/
def FirstCounted (P : Prims) (plan : SpendPlan) (utxos : List FundingUtxo) (n : ℕ) : Prop :=
  countedNeed P plan n ≤ valueOf n utxos ∧ ∀ j, 1 ≤ j → j < n →
    countedNeed P plan j ≤ maxMoney ∧ valueOf j utxos < countedNeed P plan j

/-- The plan pays someone or carries data, which fits one push. -/
def Accepted (plan : SpendPlan) : Prop :=
  (plan.recipients ≠ [] ∨ plan.opReturn ≠ none) ∧ ∀ data ∈ plan.opReturn, data.length ≤ 0xffff

/-- The arguments of a spend that is not a sweep, with amounts in range. The lists are shorter than
any array that can be allocated. -/
structure ValidSpend (P : Prims) (net : BsvNetwork) (key : EcdsaKey) (fundingAddress : CString)
    (utxos : List FundingUtxo) (plan : SpendPlan) : Prop where
  notSweep : plan.sendAll = false
  addresses : ∀ r ∈ plan.recipients, ∃ h, addrToH160 P net r.address = .ok h
  changeAddress : ∃ h, addrToH160 P net (plan.changeAddr fundingAddress) = .ok h
  dust : ∀ r ∈ plan.recipients, walletDustThreshold ≤ r.satoshis
  total : planSum plan ≤ maxMoney
  txids : ∀ u ∈ utxos, isHexLen u.txId 32 = true
  nonneg : ∀ u ∈ utxos, 0 ≤ u.satoshis
  value : fundingTotal utxos ≤ maxMoney
  pubkey : ∃ pub, key.pubkey = .ok pub
  signs : ∀ digest, ∃ der, key.signLowS digest = .ok der ∧ der.length ≤ 72
  utxosFit : utxos.length < 2 ^ 48
  recipientsFit : plan.recipients.length < 2 ^ 48

variable {P : Prims} {net : BsvNetwork} {key : EcdsaKey} {fundingAddress : CString}
  {utxos : List FundingUtxo} {plan : SpendPlan} {out : SpendResult}

theorem mem_satoshis_le : ∀ {us : List FundingUtxo} {u : FundingUtxo}, (∀ u ∈ us, 0 ≤ u.satoshis) →
    u ∈ us → u.satoshis ≤ fundingTotal us := by
  intro us u h hu
  exact List.single_le_sum (by simpa using h) _ (List.mem_map_of_mem hu)

theorem buildOpreturnScript_eq_ok {data : Bytes} :
    (∃ spk, buildOpreturnScript data = .ok spk) ↔ data.length ≤ 0xffff := by
  unfold buildOpreturnScript
  split_ifs with h1 h2 h3
  · exact iff_of_true ⟨_, rfl⟩ (by omega)
  · exact iff_of_true ⟨_, rfl⟩ (by omega)
  · exact iff_of_true ⟨_, rfl⟩ h3
  · exact iff_of_false (by simp) h3

theorem mapM_buildOpreturnScript {spk : Option Bytes} :
    plan.opReturn.mapM buildOpreturnScript = .ok spk ↔
      (∀ data ∈ plan.opReturn, data.length ≤ 0xffff) ∧ spk = dataSpk plan := by
  unfold dataSpk
  rcases plan.opReturn with _ | data
  · rw [Option.mapM_none, pure_eq_ok]
    simp [eq_comm]
  · simp only [Option.mapM_some, Option.mem_some_iff, forall_eq', Option.bind_some]
    rw [← buildOpreturnScript_eq_ok]
    rcases buildOpreturnScript data with e | s
    · simp [Functor.map, Except.map]
    · simp [Functor.map, Except.map, Except.toOption, eq_comm]

theorem dataOutputs_length (plan : SpendPlan)
    (h : ∀ data ∈ plan.opReturn, data.length ≤ 0xffff) :
    (dataOutputs (dataSpk plan)).length = if plan.opReturn.isSome then 1 else 0 := by
  unfold dataSpk
  rcases hdata : plan.opReturn with _ | data
  · rfl
  · obtain ⟨spk, hspk⟩ := buildOpreturnScript_eq_ok.mpr (h data hdata)
    simp [hspk, Except.toOption, dataOutputs]

theorem outpointBytes_of_txid {i : TxIn} (h : IsTxid i.prevTxidDisplay) :
    ∃ bs, outpointBytes i = .ok bs := by
  obtain ⟨bs, hlen, hdisp⟩ := h
  have hdec : hexDecodeFixed i.prevTxidDisplay 32 = .ok bs := by
    unfold hexDecodeFixed
    rw [hdisp, hexEncode_length, hlen, if_neg (by simp), hexDecode_hexEncode]
  simp only [outpointBytes, hdec, bind, Except.bind]
  exact ⟨_, rfl⟩

theorem mapM_outpointBytes : ∀ {is : List TxIn}, (∀ i ∈ is, IsTxid i.prevTxidDisplay) →
    ∃ bss, is.mapM outpointBytes = Except.ok bss
  | [], _ => ⟨[], rfl⟩
  | i :: is, h => by
    rw [List.forall_mem_cons] at h
    obtain ⟨bs, hbs⟩ := outpointBytes_of_txid h.1
    obtain ⟨bss, hbss⟩ := mapM_outpointBytes h.2
    rw [List.mapM_cons, hbs, hbss]
    exact ⟨bs :: bss, rfl⟩

theorem bip143Sighash_of_lt {tx : Tx} {k : ℕ} {scriptCode : Bytes} {satoshis : UInt64}
    {sighashType : UInt8} (h : ∀ i ∈ tx.inputs, IsTxid i.prevTxidDisplay)
    (hk : k < tx.inputs.length) :
    ∃ digest, bip143Sighash P tx k scriptCode satoshis sighashType = .ok digest := by
  obtain ⟨bss, hbss⟩ := mapM_outpointBytes h
  obtain ⟨bs, hbs⟩ := outpointBytes_of_txid (h _ (List.getElem_mem hk))
  simp only [bip143Sighash, bip143Preimage, List.getElem?_eq_getElem hk, hbss, hbs, bind,
    Except.bind]
  exact ⟨_, rfl⟩

/-- Signing goes through as long as every input spends a txid. -/
theorem signSelected_of_txids {pub : Block 33} {scriptCode : Bytes}
    (hkey : ∀ digest, ∃ der, key.signLowS digest = .ok der) :
    ∀ {us : List FundingUtxo} {k : ℕ} {tx : Tx}, (∀ i ∈ tx.inputs, IsTxid i.prevTxidDisplay) →
      k + us.length ≤ tx.inputs.length →
        ∃ tx', signSelected P key pub scriptCode tx k us = .ok tx'
  | [], k, tx, _, _ => ⟨tx, rfl⟩
  | u :: us, k, tx, htxid, hlen => by
    rw [List.length_cons] at hlen
    obtain ⟨digest, hdigest⟩ : ∃ digest, bip143Sighash P tx k scriptCode (u64OfInt u.satoshis)
        sighashAllForkid = .ok digest := bip143Sighash_of_lt htxid (by omega)
    obtain ⟨der, hder⟩ := hkey digest
    have hstep : signP2pkhInput P key pub scriptCode tx k u.satoshis = .ok { tx with
        inputs := tx.inputs.modify k fun i => { i with scriptSig := p2pkhScriptSig der pub } } := by
      simp only [signP2pkhInput, hdigest, hder, orFail, bind, Except.bind]
      rfl
    have htxid' : ∀ i ∈ tx.inputs.modify k fun i => { i with scriptSig := p2pkhScriptSig der pub },
        IsTxid i.prevTxidDisplay := by
      intro i hi
      obtain ⟨j, hj⟩ := List.mem_iff_getElem?.mp hi
      rw [List.getElem?_modify, Option.map_eq_map, Option.map_eq_some_iff] at hj
      obtain ⟨i', hi', rfl⟩ := hj
      have := htxid i' (List.mem_of_getElem? hi')
      split_ifs <;> exact this
    rw [signSelected, hstep]
    exact signSelected_of_txids hkey htxid' (by rw [List.length_modify]; omega)

/-- The placeholder transaction has the worst-case size. -/
theorem estimateSize_placeholders (us : List FundingUtxo) {os cs : List TxOut}
    (hsweep : plan.sendAll = false) (hdata : ∀ data ∈ plan.opReturn, data.length ≤ 0xffff)
    (hos : PaysAll P net plan.sendAll plan.recipients os)
    (hcs : ChangeSlot P net fundingAddress plan cs) :
    estimateSize (installPlaceholders
        ⟨1, us.map fundingInput, os ++ dataOutputs (dataSpk plan) ++ cs, 0⟩)
      = worstCaseSize plan us.length := by
  have hp2pkh : ∀ {address : CString} {satoshis : UInt64} {o : TxOut},
      PaysTo P net address satoshis o → outputSize o = 34 := by
    rintro address satoshis _ ⟨⟨h160, hlen⟩, -, rfl⟩
    simp [outputSize, buildP2pkhScript, hlen, writeVarint]
  obtain ⟨h160, haddr, rfl⟩ := (changeSlot_iff hsweep).mp hcs
  have hchange : outputSize ⟨0, buildP2pkhScript h160⟩ = 34 := hp2pkh ⟨h160, haddr, rfl⟩
  have hsum : (os.map outputSize).sum = plan.recipients.length * 34 := by
    have hall : os.map outputSize = plan.recipients.map fun _ => 34 :=
      map_eq_of_forall₂ (fun _ _ ho => hp2pkh ho) hos
    rw [hall, List.map_const', List.sum_replicate_nat]
  have hins : ∀ is : List TxIn, ((is.map fun i => { i with
        scriptSig := List.replicate walletP2pkhScriptsigMax 0 }).map inputSize).sum
      = is.length * (41 + walletP2pkhScriptsigMax) := by
    intro is
    have hall : (inputSize ∘ fun i : TxIn => { i with
        scriptSig := List.replicate walletP2pkhScriptsigMax 0 })
        = fun _ => 41 + walletP2pkhScriptsigMax := by
      funext i
      rw [Function.comp_apply, inputSize_of_lt (by simp [walletP2pkhScriptsigMax]),
        List.length_replicate]
    rw [List.map_map, hall, List.map_const', List.sum_replicate_nat]
  have hcount : (os ++ dataOutputs (dataSpk plan) ++ [TxOut.mk 0 (buildP2pkhScript h160)]).length
      = plan.nOutEst := by
    unfold SpendPlan.nOutEst
    simp only [List.length_append, List.length_singleton, hos.length_eq.symm,
      dataOutputs_length plan hdata, hsweep, Bool.false_eq_true, if_false]
  have hins' := hins (us.map fundingInput)
  unfold worstCaseSize estimateSize installPlaceholders
  simp only [List.length_map] at hins' ⊢
  rw [hcount, hins', List.map_append, List.map_append, List.sum_append, List.sum_append, hsum,
    List.map_singleton, List.sum_singleton, hchange]
  omega

theorem estNeed_eq_countedNeed {totalRecip : UInt64} (h : totalRecip.toNat = planSum plan) :
    estNeed P plan.rate totalRecip plan.nOutEst ((dataSpk plan).elim 0 List.length)
      = countedNeed P plan := by
  funext n
  unfold estNeed countedNeed
  rw [h]

namespace ValidSpend

variable (hv : ValidSpend P net key fundingAddress utxos plan)
include hv

theorem satoshis_lt : ∀ u ∈ utxos, u.satoshis < 2 ^ 63 := by
  intro u hu
  have hle := mem_satoshis_le hv.nonneg hu
  have hvalue := hv.value
  have hmax : maxMoney = 2100000000000000 := rfl
  omega

theorem valueOf_le (n : ℕ) : valueOf n utxos ≤ maxMoney := by
  have hsplit : fundingTotal utxos = valueOf n utxos + fundingTotal (utxos.drop n) := by
    unfold valueOf fundingTotal
    rw [← List.sum_append, ← List.map_append, List.take_append_drop]
  have hdrop : 0 ≤ fundingTotal (utxos.drop n) :=
    fundingTotal_nonneg fun u hu => hv.nonneg u (List.mem_of_mem_drop hu)
  have hvalue := hv.value
  omega

theorem planTotal_eq_ok : ∃ total, planTotal plan = .ok total ∧ total.toNat = planSum plan := by
  have hmax : maxMoney = 2100000000000000 := rfl
  have htotal := hv.total
  have hn : (UInt64.ofNat (planSum plan)).toNat = planSum plan := by
    rw [UInt64.toNat_ofNat', Nat.mod_eq_of_lt (by omega)]
  refine ⟨UInt64.ofNat (planSum plan), ?_, hn⟩
  have hzero : (0 : UInt64).toNat = 0 := rfl
  unfold planTotal
  rw [if_neg (by simp [hv.notSweep]), recipientTotal_eq_ok addMoney_zero_le, hn, hzero, zero_add]
  exact ⟨hv.dust, htotal, rfl⟩

/-- The selection takes the first outputs that cover their size by counts. -/
theorem selectUtxos_eq_ok {total totalIn : UInt64} {n : ℕ} (htotal : total.toNat = planSum plan) :
    selectUtxos P plan total ((dataSpk plan).elim 0 List.length) utxos = .ok (n, totalIn) ↔
      1 ≤ n ∧ n ≤ utxos.length ∧ FirstCounted P plan utxos n
        ∧ (totalIn.toNat : ℤ) = valueOf n utxos := by
  have hzero : (((0 : UInt64).toNat : ℕ) : ℤ) = 0 := rfl
  unfold selectUtxos
  rw [if_neg (by simp [hv.notSweep]), selectFunding_eq_ok addMoney_zero_le hv.satoshis_lt,
    estNeed_eq_countedNeed htotal, hzero]
  unfold FirstCounted
  constructor
  · rintro ⟨m, hsel, rfl, hr⟩
    have hcovers := hsel.covers
    have hbefore := hsel.before
    simp only [zero_add] at hcovers hbefore hr ⊢
    exact ⟨hsel.pos, hsel.le, ⟨hcovers, hbefore⟩, hr⟩
  · rintro ⟨hpos, hle, ⟨hcovers, hbefore⟩, hr⟩
    refine ⟨n, ⟨hpos, hle, fun u hu => hv.nonneg u (List.mem_of_mem_take hu), ?_, ?_, ?_⟩, ?_, ?_⟩
    · rw [zero_add]
      exact hv.valueOf_le n
    · simpa using hcovers
    · simpa using hbefore
    · rw [zero_add]
    · simpa using hr

theorem buildUnsigned_ok (n : ℕ) : ∃ os cs, PaysAll P net plan.sendAll plan.recipients os
    ∧ ChangeSlot P net fundingAddress plan cs
    ∧ buildUnsigned P net fundingAddress plan (dataSpk plan) (utxos.take n)
      = .ok ⟨1, (utxos.take n).map fundingInput, os ++ dataOutputs (dataSpk plan) ++ cs, 0⟩ := by
  have hpays : ∀ rs : List SpendRecipient,
      (∀ r ∈ rs, ∃ h, addrToH160 P net r.address = .ok h) →
        ∃ os, PaysAll P net plan.sendAll rs os := by
    intro rs hrs
    induction rs with
    | nil => exact ⟨[], .nil⟩
    | cons r rs ih =>
      rw [List.forall_mem_cons] at hrs
      obtain ⟨h, haddr⟩ := hrs.1
      obtain ⟨os, hos⟩ := ih hrs.2
      exact ⟨_ :: os, .cons ⟨h, haddr, rfl⟩ hos⟩
  obtain ⟨os, hos⟩ := hpays _ hv.addresses
  obtain ⟨h, haddr⟩ := hv.changeAddress
  have hcs := (changeSlot_iff hv.notSweep).mpr ⟨h, haddr, rfl⟩
  exact ⟨os, _, hos, hcs, buildUnsigned_eq_ok.mpr
    ⟨fun u hu => hv.txids u (List.mem_of_mem_take hu), os, _, hos, hcs, rfl⟩⟩

theorem worstCaseSize_lt {n : ℕ} (hn : n ≤ utxos.length)
    (hdata : ∀ data ∈ plan.opReturn, data.length ≤ 0xffff) : worstCaseSize plan n < 2 ^ 64 := by
  have hvarint : ∀ m : ℕ, (writeVarint m).length ≤ 9 := by
    intro m
    unfold writeVarint
    split_ifs <;> simp
  have hspk : ((dataOutputs (dataSpk plan)).map outputSize).sum ≤ 0x20000 := by
    unfold dataSpk
    rcases hdata' : plan.opReturn with _ | data
    · simp [dataOutputs]
    have hlen := hdata data hdata'
    unfold buildOpreturnScript
    simp only [Option.bind_some]
    split_ifs <;> simp [Except.toOption, dataOutputs, outputSize] <;>
      exact (Nat.add_le_add_right (Nat.add_le_add_left (hvarint _) 8) _).trans (by omega)
  have hutxos := hv.utxosFit
  have hrecipients := hv.recipientsFit
  have h1 := hvarint n
  have h2 := hvarint plan.nOutEst
  unfold worstCaseSize walletP2pkhScriptsigMax
  omega

/-- Settling goes through exactly when the inputs cover the fee of the placeholder transaction. -/
theorem settle_eq_ok {b : Tx} {totalIn total : UInt64} {pre : List TxOut} {script : Bytes}
    (hb : b.outputs = pre ++ [⟨0, script⟩]) (hmax : totalIn.toNat ≤ maxMoney) :
    (∃ st, settle P plan b totalIn total = .ok st) ↔
      total.toNat + (feeFor P (estimateSize b) plan.rate).toNat ≤ totalIn.toNat := by
  have hsettle : settle P plan b totalIn total
      = if feeFor P (estimateSize b) plan.rate > bonsaiMaxMoney then
          bnsFail .erange "fee out of range"
        else settleChange b totalIn total (feeFor P (estimateSize b) plan.rate)
          (estimateSize b) := by
    unfold settle
    simp [hv.notSweep]
  rw [hsettle]
  constructor
  · rintro ⟨st, hst⟩
    split_ifs at hst with hfee
    · exact absurd hst (by simp)
    · exact (settleChange_eq_ok hb hst).1
  · intro hle
    have hfee : ¬feeFor P (estimateSize b) plan.rate > bonsaiMaxMoney := by
      rw [gt_iff_lt, UInt64.not_lt, UInt64.le_iff_toNat_le]
      unfold maxMoney at hmax
      omega
    rw [if_neg hfee]
    exact settleChange_of_covers hle hmax

/-- Signing and printing go through. -/
theorem sign_ok {st : Settled} {b₀ : Tx} {n : ℕ} (pub : Block 33) (scriptCode : Bytes)
    (hinputs : b₀.inputs = (utxos.take n).map fundingInput)
    (hst : st.tx.inputs = (installPlaceholders b₀).inputs)
    (hsize : estimateSize st.tx < 2 ^ 64) :
    ∃ tx raw txid, signSelected P key pub scriptCode st.tx 0 (utxos.take n) = .ok tx
      ∧ txSerialize tx = .ok raw ∧ txId (fun bs => (sha256d P bs).1) tx = .ok txid := by
  have hplace : ∀ i ∈ st.tx.inputs, i.scriptSig.length = walletP2pkhScriptsigMax := by
    rw [hst]
    exact placeholders_length
  have htxid : ∀ i ∈ st.tx.inputs, IsTxid i.prevTxidDisplay := by
    rw [hst]
    exact placeholders_isTxid hinputs fun u hu => hv.txids u (List.mem_of_mem_take hu)
  have hlen : 0 + (utxos.take n).length ≤ st.tx.inputs.length := by
    rw [hst]
    simp [installPlaceholders, hinputs]
  have hkey : ∀ digest der, key.signLowS digest = .ok der → der.length ≤ 72 := by
    intro digest der hder
    obtain ⟨der', hder', hlen'⟩ := hv.signs digest
    obtain rfl := Except.ok.inj (hder.symm.trans hder')
    exact hlen'
  obtain ⟨tx, hsign⟩ := signSelected_of_txids (P := P) (fun digest =>
    (hv.signs digest).imp fun _ h => h.1) htxid hlen
  have hsigned := signSelected_signedAs hkey (signedAs_self hplace) hsign
  have htxid' := hsigned.isTxid htxid
  have hraw : txSerialize tx = .ok (txBytes tx) := by
    rw [txSerialize_eq_ok htxid', txBytes_length htxid']
    exact ⟨rfl, (hsigned.estimateSize_le hplace).trans_lt hsize⟩
  refine ⟨tx, _, hexEncode (sha256d P (txBytes tx)).1.reverse, hsign, hraw, ?_⟩
  simp only [txId, hraw, bind, Except.bind]
  rfl

end ValidSpend

theorem spend_ok_iff (hv : ValidSpend P net key fundingAddress utxos plan) :
    (∃ out, walletBuildSignedSpend P net key fundingAddress utxos plan = .ok out) ↔
      Accepted plan ∧ ∃ n, Funds P plan utxos n ∧ FirstCounted P plan utxos n := by
  obtain ⟨total, htotal, hsum⟩ := hv.planTotal_eq_ok
  constructor
  · rintro ⟨out, h⟩
    simp only [walletBuildSignedSpend, bind_eq_ok, orFail_eq_ok, pure_eq_ok] at h
    obtain ⟨⟨⟩, hcheck, pub, -, total', htotal', spk, hspk, ⟨n, totalIn⟩, hselect, b, hb, st,
      hsettle, -⟩ := h
    obtain rfl := Except.ok.inj (htotal.symm.trans htotal')
    obtain ⟨hdata, rfl⟩ := mapM_buildOpreturnScript.mp hspk
    obtain ⟨hpos, hle, hfirst, hvalue⟩ := (hv.selectUtxos_eq_ok hsum).mp hselect
    obtain ⟨-, os, cs, hos, hcs, rfl⟩ := buildUnsigned_eq_ok.mp hb
    have hmax : totalIn.toNat ≤ maxMoney := by
      have := hv.valueOf_le n
      omega
    have hsize := estimateSize_placeholders (utxos.take n) hv.notSweep hdata hos hcs
    rw [List.length_take_of_le hle] at hsize
    rw [checkPlan_eq_ok, if_neg (by simp [hv.notSweep])] at hcheck
    refine ⟨⟨hcheck, hdata⟩, n, ⟨hpos, hle, ?_⟩, hfirst⟩
    obtain ⟨h160, -, rfl⟩ := (changeSlot_iff hv.notSweep).mp hcs
    have hcovers := (hv.settle_eq_ok rfl hmax).mp ⟨st, hsettle⟩
    rw [hsize, hsum] at hcovers
    omega
  · rintro ⟨⟨hplan, hdata⟩, n, ⟨hpos, hle, hfunds⟩, hfirst⟩
    have hcheck : checkPlan plan = .ok () := by
      rw [checkPlan_eq_ok, if_neg (by simp [hv.notSweep])]
      exact hplan
    obtain ⟨pub, hpub⟩ := hv.pubkey
    have hspk := mapM_buildOpreturnScript.mpr ⟨hdata, rfl⟩
    have hvalue := hv.valueOf_le n
    have hmoney : maxMoney = 2100000000000000 := rfl
    obtain ⟨totalIn, htotalIn⟩ : ∃ totalIn : UInt64, (totalIn.toNat : ℤ) = valueOf n utxos :=
      ⟨u64OfInt (valueOf n utxos), by rw [u64OfInt_toNat]; omega⟩
    have hselect := (hv.selectUtxos_eq_ok hsum).mpr ⟨hpos, hle, hfirst, htotalIn⟩
    obtain ⟨os, cs, hos, hcs, hb⟩ := hv.buildUnsigned_ok n
    have hsize := estimateSize_placeholders (utxos.take n) hv.notSweep hdata hos hcs
    rw [List.length_take_of_le hle] at hsize
    obtain ⟨h160, -, rfl⟩ := (changeSlot_iff hv.notSweep).mp hcs
    obtain ⟨st, hsettle⟩ := (hv.settle_eq_ok (b := installPlaceholders _) rfl
      (by omega : totalIn.toNat ≤ maxMoney)).mpr (by rw [hsize, hsum]; omega)
    have hsettled := settle_settledAs hcheck htotal hos hcs rfl hsettle
    have hlt : estimateSize st.tx < 2 ^ 64 :=
      hsettled.size.trans_lt (hsize.trans_lt (hv.worstCaseSize_lt hle hdata))
    obtain ⟨tx, raw, txid, hsign, hraw, htxid⟩ :=
      hv.sign_ok pub (buildP2pkhScript (P.hash160 pub.1)) rfl hsettled.inputs hlt
    refine ⟨⟨hexEncode raw, txid, totalIn, st.totalOut, st.fee, st.change, n, st.sizeBytes⟩, ?_⟩
    simp only [walletBuildSignedSpend, bind_eq_ok, orFail_eq_ok, pure_eq_ok]
    exact ⟨(), hcheck, pub, hpub, total, htotal, _, hspk, (n, totalIn), hselect, _, hb, st, hsettle,
      tx, hsign, raw, hraw, txid, htxid, rfl⟩

/-- A spend that some first outputs could fund goes through exactly when the first outputs that
cover the size by counts are among those. -/
theorem walletBuildSignedSpend_complete_iff
    (hv : ValidSpend P net key fundingAddress utxos plan) :
    ((∃ n, Funds P plan utxos n) →
        ∃ out, walletBuildSignedSpend P net key fundingAddress utxos plan = .ok out) ↔
      ((∃ n, Funds P plan utxos n) →
        Accepted plan ∧ ∃ n, Funds P plan utxos n ∧ FirstCounted P plan utxos n) := by
  rw [spend_ok_iff hv]

theorem exampleAddress_pays : addrToH160 codePrims .mainnet exampleAddress
    = .ok (hash160 exampleSpendPubkey.1) := by
  decide +kernel

theorem examplePayee_pays : addrToH160 codePrims .mainnet examplePayee
    = .ok ⟨[0x06, 0xaf, 0xd4, 0x6b, 0xcd, 0xfd, 0x22, 0xef, 0x94, 0xac, 0x12, 0x2a, 0xa1, 0x1f,
        0x24, 0x12, 0x44, 0xa3, 0x7e, 0xcc], rfl⟩ := by
  decide +kernel

theorem exampleSpend_valid {n : ℕ} {satoshis : UInt64} (hn : n ≤ 15)
    (hdust : walletDustThreshold ≤ satoshis) (hmax : satoshis.toNat ≤ maxMoney) :
    ValidSpend codePrims .mainnet exampleSpendKey exampleAddress (exampleUtxos n)
      (exampleSpendPlan satoshis) where
  notSweep := rfl
  addresses := by
    simp only [exampleSpendPlan, List.forall_mem_singleton]
    exact ⟨_, examplePayee_pays⟩
  changeAddress := ⟨_, exampleAddress_pays⟩
  dust := by simpa [exampleSpendPlan] using hdust
  total := by simpa [exampleSpendPlan, planSum] using hmax
  txids := by
    simp only [exampleUtxos, List.forall_mem_map]
    exact fun _ _ => by decide +kernel
  nonneg := by simp [exampleUtxos]
  value := by
    have hmoney : maxMoney = 2100000000000000 := rfl
    simp only [exampleUtxos, fundingTotal, List.map_map, Function.comp_def, List.map_const',
      List.length_range, List.sum_replicate, nsmul_eq_mul]
    omega
  pubkey := ⟨_, rfl⟩
  signs digest := ⟨_, rfl, exampleSpendKey_length digest _ rfl⟩
  utxosFit := by
    rw [exampleUtxos, List.length_map, List.length_range]
    omega
  recipientsFit := by simp [exampleSpendPlan]

theorem walletBuildSignedSpend_complete_iff_three :
    ∃ out, walletBuildSignedSpend codePrims .mainnet exampleSpendKey exampleAddress
      (exampleUtxos 3) (exampleSpendPlan 1200) = .ok out := by
  have hv : ValidSpend codePrims .mainnet exampleSpendKey exampleAddress (exampleUtxos 3)
      (exampleSpendPlan 1200) := exampleSpend_valid (by decide) (by decide) (by decide)
  have hfunds : Funds codePrims (exampleSpendPlan 1200) (exampleUtxos 3) 2 :=
    ⟨by decide, by decide, by decide +kernel⟩
  refine (walletBuildSignedSpend_complete_iff hv).mpr (fun _ => ⟨⟨.inl (by decide), by decide⟩, 2,
    hfunds, by decide +kernel, fun j h1 hlt => ?_⟩) ⟨2, hfunds⟩
  obtain rfl : j = 1 := by omega
  exact ⟨by decide +kernel, by decide +kernel⟩

/-- Fifteen outputs fund the spend; the first fourteen cover the size by counts and not their own
fee. -/
theorem walletBuildSignedSpend_incomplete :
    ValidSpend codePrims .mainnet exampleSpendKey exampleAddress (exampleUtxos 15)
        (exampleSpendPlan 13892)
      ∧ Funds codePrims (exampleSpendPlan 13892) (exampleUtxos 15) 15
      ∧ walletBuildSignedSpend codePrims .mainnet exampleSpendKey exampleAddress
        (exampleUtxos 15) (exampleSpendPlan 13892)
        = .error (.erange, ascii "insufficient funds for fee") :=
  ⟨exampleSpend_valid (by decide) (by decide) (by decide),
    ⟨by decide, by decide, by decide +kernel⟩, by decide +kernel⟩

end Complete

end WalletSpend

end BonsaiChain
