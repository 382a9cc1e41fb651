import BonsaiChain.Hash
import BonsaiChain.Proofs.Builders
import Mathlib.Algebra.Order.BigOperators.Group.List

/-!
# Value conservation of the builders

A successful call with a change output spends exactly its outputs and its fee, except that the four
PublisherTea builders that keep the state leave the value of the spent contract output out.
-/

namespace BonsaiChain

open Lib

namespace BuilderCall

/-- The satoshis of all outputs the call spends. -/
def spent (call : BuilderCall) : ℤ := call.utxo.value.toNat + fundingTotal call.funding

/-- Nothing of the spent value is left out: it is the outputs and the fee, which is the requested
fee or the fee of the size with the change output present. -/
def Conserves (P : Prims) (call : BuilderCall) (tx : Tx) (changeHash160 : Block 20) : Prop :=
  call.spent = outTotal tx.outputs
    + (call.request.fee P
        (sizeWithChange { tx with outputs := tx.outputs.take call.pinned } changeHash160)).toNat

instance (P : Prims) (call : BuilderCall) (tx : Tx) (changeHash160 : Block 20) :
    Decidable (call.Conserves P tx changeHash160) := inferInstanceAs (Decidable (_ = _))

/-- The total the call seeds its change output with. -/
def seed (call : BuilderCall) : ℤ :=
  if call.isStateAndReceipt then fundingTotal call.funding
  else fundingTotal call.funding + call.utxo.value.toNat

/-- A bounty of half the value, rounded down, and the rest burnt. -/
theorem bounty_add_burn (v : UInt64) : (v / 2).toNat + (v - v / 2).toNat = v.toNat := by
  have hdiv : (v / 2).toNat = v.toNat / 2 := UInt64.toNat_div v 2
  have hhalf : v / 2 ≤ v := by
    rw [UInt64.le_iff_toNat_le, hdiv]
    omega
  rw [UInt64.toNat_sub_of_le _ _ hhalf, hdiv]
  omega

/-- One output, alone or with a receipt of value 0, never overflows. -/
theorem bounded_single {req : ChangeRequest} {value : UInt64} {script : Bytes} :
    req.Bounded [⟨value, script⟩] := by
  have := value.toNat_lt
  exact ChangeRequest.bounded_of_lt (by simpa using this)

theorem bounded_receipt {req : ChangeRequest} {value : UInt64} {script receipt : Bytes} :
    req.Bounded [⟨value, script⟩, ⟨0, receipt⟩] := by
  have := value.toNat_lt
  exact ChangeRequest.bounded_of_lt (by simpa using this)

theorem bounded_slashed {req : ChangeRequest} {value : UInt64} {script burnt : Bytes} :
    req.Bounded [⟨value / 2, script⟩, ⟨value - value / 2, burnt⟩] := by
  have := value.toNat_lt
  refine ChangeRequest.bounded_of_lt ?_
  rw [outTotal_cons, outTotal_cons, outTotal_nil, Nat.add_zero, bounty_add_burn]
  exact this

/-- The parts of the transaction of a successful call. -/
theorem build_eq_ok {P : Prims} {call : BuilderCall} {tx : Tx} (hok : call.build P = .ok tx) :
    ∃ sequence pinned locktime change,
      Built P call.utxo sequence call.funding pinned call.request call.seed locktime tx change
        ∧ pinned.length = call.pinned ∧ call.request.Bounded pinned := by
  cases call with
  | arpAnnounce c utxo bundleHash fileSetRoot now opts =>
    simp only [build, buildArpAnnounce, bind_eq_ok] at hok
    obtain ⟨receipt, -, hok⟩ := hok
    obtain ⟨script, change, -, hb⟩ := stateAndReceiptTx_eq_ok hok
    exact ⟨_, _, _, change, hb, rfl, bounded_receipt⟩
  | arpActivate c utxo activateDigest now opts =>
    simp only [build, buildArpActivate, bind_eq_ok] at hok
    obtain ⟨receipt, -, hok⟩ := hok
    obtain ⟨script, change, -, hb⟩ := stateAndReceiptTx_eq_ok hok
    exact ⟨_, _, _, change, hb, rfl, bounded_receipt⟩
  | arpCancel c utxo now opts =>
    simp only [build, buildArpCancel, bind_eq_ok] at hok
    obtain ⟨receipt, -, hok⟩ := hok
    obtain ⟨script, change, -, hb⟩ := stateAndReceiptTx_eq_ok hok
    exact ⟨_, _, _, change, hb, rfl, bounded_receipt⟩
  | arpInvalidate c utxo activateDigest now opts =>
    simp only [build, buildArpInvalidate, bind_eq_ok] at hok
    obtain ⟨receipt, -, hok⟩ := hok
    obtain ⟨script, change, -, hb⟩ := stateAndReceiptTx_eq_ok hok
    exact ⟨_, _, _, change, hb, rfl, bounded_receipt⟩
  | arpRetire c utxo opts =>
    obtain ⟨change, hb⟩ := buildArpRetire_eq_ok hok
    exact ⟨_, _, _, change, hb, rfl, bounded_single⟩
  | arpAttestorSlash utxo reporter opts =>
    obtain ⟨change, hb⟩ := buildArpAttestorSlash_eq_ok hok
    exact ⟨_, _, _, change, hb, rfl, bounded_slashed⟩
  | arpAttestorStake c utxo addAmount opts =>
    obtain ⟨balance, script, change, -, hb⟩ := buildArpAttestorStake_eq_ok hok
    exact ⟨_, _, _, change, hb, rfl, bounded_single⟩
  | arpAttestorWithdraw c utxo lockTime opts =>
    obtain ⟨change, hb⟩ := buildArpAttestorWithdraw_eq_ok hok
    exact ⟨_, _, _, change, hb, rfl, bounded_single⟩
  | agentTeaAction c identity counterparty amount actionHash provenanceHash now opts =>
    obtain ⟨pre, script, change, -, -, hb⟩ := buildAgentTeaAction_eq_ok hok
    exact ⟨_, _, _, change, hb, rfl, bounded_receipt⟩
  | agentTeaStake c identity addAmount opts =>
    obtain ⟨balance, script, change, -, -, hb⟩ := buildAgentTeaStake_eq_ok hok
    exact ⟨_, _, _, change, hb, rfl, bounded_single⟩
  | agentTeaSlashValidator identity reporter opts =>
    obtain ⟨change, hb⟩ := buildAgentTeaSlashValidator_eq_ok hok
    exact ⟨_, _, _, change, hb, rfl, bounded_slashed⟩
  | agentTeaRecover c identity newAgent opts =>
    obtain ⟨pre, script, change, -, -, hb⟩ := buildAgentTeaRecover_eq_ok hok
    exact ⟨_, _, _, change, hb, rfl, bounded_receipt⟩
  | agentTeaRevoke c identity opts =>
    obtain ⟨change, -, hb⟩ := buildAgentTeaRevoke_eq_ok hok
    exact ⟨_, _, _, change, hb, rfl, bounded_single⟩
  | ricardianTeaExecute c identity counterparty amount invoiceHash provenanceHash now opts =>
    obtain ⟨pre, script, amountSats, change, -, -, -, hb⟩ := buildRicardianTeaExecute_eq_ok hok
    exact ⟨_, _, _, change, hb, rfl, opts.bounded_request _⟩
  | ricardianTeaRevoke c identity opts =>
    obtain ⟨change, -, hb⟩ := buildRicardianTeaRevoke_eq_ok hok
    exact ⟨_, _, _, change, hb, rfl, bounded_single⟩
  | ricardianTeaSlash identity reporter opts =>
    obtain ⟨change, hb⟩ := buildPayoutToPubkey_eq_ok hok
    exact ⟨_, _, _, change, hb, rfl, bounded_single⟩
  | ricardianTeaCheckpoint c identity newCheckpointHash opts =>
    obtain ⟨script, change, -, hb⟩ := buildRicardianTeaCheckpoint_eq_ok hok
    exact ⟨_, _, _, change, hb, rfl, bounded_single⟩

/-- What a successful call seeds its change with is used up by its outputs and the fee. -/
theorem seed_eq {P : Prims} {call : BuilderCall} {tx : Tx} {h : Block 20}
    (hreq : call.request.hash = some h) (hok : call.build P = .ok tx)
    (h0 : 0 ≤ call.seed) (hlt : call.seed < 2 ^ 64) :
    call.seed = outTotal tx.outputs
      + (call.request.fee P
        (sizeWithChange { tx with outputs := tx.outputs.take call.pinned } h)).toNat := by
  obtain ⟨sequence, pinned, locktime, change, hb, hlen, hbound⟩ := build_eq_ok hok
  have htake : tx.outputs.take call.pinned = pinned := by
    rw [hb.tx_eq, ← hlen]
    exact List.take_left'  rfl
  have htotal : outTotal tx.outputs = outTotal pinned + change.toNat := by
    rw [hb.tx_eq]
    simp [ChangeRequest.outputs, hreq]
  have hseed := hb.seed_eq hbound h hreq
  rw [Int.emod_eq_of_lt h0 hlt] at hseed
  rw [htake, htotal, hseed]
  push_cast
  ring

theorem fundingTotal_nonneg {funding : List FundingUtxo} (h : ∀ u ∈ funding, 0 ≤ u.satoshis) :
    0 ≤ fundingTotal funding := by
  unfold fundingTotal
  apply List.sum_nonneg
  intro z hz
  obtain ⟨u, hu, rfl⟩ := List.mem_map.mp hz
  exact h u hu

/-- A successful call with change conserves the spent value exactly when it counts the spent
contract output or that output is worth nothing. -/
theorem conserves_iff {P : Prims} {call : BuilderCall} {tx : Tx} {h : Block 20}
    (hreq : call.request.hash = some h) (hfund : ∀ u ∈ call.funding, 0 ≤ u.satoshis)
    (htotal : call.spent ≤ bonsaiMaxMoney.toNat) (hok : call.build P = .ok tx) :
    call.Conserves P tx h ↔ (call.isStateAndReceipt = true → call.utxo.value = 0) := by
  have hmax : bonsaiMaxMoney.toNat = 2100000000000000 := rfl
  have hfund0 : 0 ≤ fundingTotal call.funding := fundingTotal_nonneg hfund
  have hspent : call.spent = call.utxo.value.toNat + fundingTotal call.funding := rfl
  have hzero : call.utxo.value = 0 ↔ call.utxo.value.toNat = 0 := by
    rw [← UInt64.toNat_inj]
    rfl
  have hseed := seed_eq hreq hok
  unfold Conserves
  unfold seed at hseed
  by_cases hcase : call.isStateAndReceipt = true
  · simp only [hcase, if_true, forall_const] at hseed ⊢
    rw [← hseed hfund0 (by omega), hzero]
    omega
  · rw [Bool.not_eq_true] at hcase
    simp only [hcase, Bool.false_eq_true, if_false, false_imp_iff, iff_true] at hseed ⊢
    rw [← hseed (by omega) (by omega)]
    omega

section Examples

def exampleUtxo : ContractUtxo := ⟨List.replicate 64 49, 0, 1000⟩

def exampleFunding : List FundingUtxo := [⟨List.replicate 64 50, 1, 5000⟩]

def exampleChange : Block 20 := Block.fill 20 7

/-- An attestor contract of one constructor placeholder. -/
def exampleAttestor : AttestorTea where
  artifact :=
    { hexTemplate := ascii "<operator>ac"
      ctorParams := [⟨ascii "operator", .pubkey⟩, ⟨ascii "key", .int⟩, ⟨ascii "unbond", .int⟩]
      structs := []
      stateProps := [] }
  params := ⟨List.replicate 33 2, 35, 1⟩

def exampleStake : BuilderCall :=
  .arpAttestorStake exampleAttestor exampleUtxo 100 ⟨exampleFunding, some exampleChange, true⟩

/-- A funding of 5000 pays the 100 satoshis added to the stake of 1000, the fee and the change. -/
theorem conserves_iff_stake :
    ∃ tx, exampleStake.build codePrims = .ok tx ∧ tx.outputs.map (·.satoshis) = [1100, 4891]
      ∧ exampleStake.Conserves codePrims tx exampleChange := by
  obtain ⟨tx, hok, houtputs⟩ : ∃ tx, exampleStake.build codePrims = .ok tx
      ∧ tx.outputs.map (·.satoshis) = [1100, 4891] := by
    decide +kernel
  exact ⟨tx, hok, houtputs,
    (conserves_iff (by decide) (by decide) (by decide) hok).mpr (by decide)⟩

def exampleRabinKeys : Vector ℤ 3 := #v[35, 77, 1081]

/-- A publisher contract with one constructor placeholder in its code part. -/
def examplePublisher : PublisherTea where
  artifact :=
    { hexTemplate := ascii "<publisherHash>ac"
      ctorParams := [⟨ascii "publisherKey", .pubkey⟩, ⟨ascii "approverKey", .pubkey⟩,
        ⟨ascii "cancelKey", .pubkey⟩, ⟨ascii "publisherHash", .sha256⟩,
        ⟨ascii "delaySeconds", .int⟩, ⟨ascii "attestorPubKeys", .fixedArray⟩,
        ⟨ascii "quorum", .int⟩]
      structs := []
      stateProps := [⟨ascii "pendingBundleHash", .sha256⟩, ⟨ascii "pendingFileSetRoot", .sha256⟩,
        ⟨ascii "pendingAnnounceTime", .int⟩, ⟨ascii "releaseCount", .int⟩] }
  params := ⟨List.replicate 33 2, List.replicate 33 2, List.replicate 33 2, List.replicate 32 0x11,
    60, exampleRabinKeys, 2⟩
  state := ⟨zero32, zero32, 0, 0⟩

def exampleInvalidate : BuilderCall :=
  .arpInvalidate examplePublisher exampleUtxo (Block.fill 32 0x22) 1700000000
    ⟨exampleFunding, some exampleChange, true⟩

/-- An invalidation of a contract output of 1000 satoshis pays that value to fees. -/
theorem invalidate_burns_value :
    exampleInvalidate.request.hash = some exampleChange
      ∧ (∀ u ∈ exampleInvalidate.funding, 0 ≤ u.satoshis)
      ∧ exampleInvalidate.spent ≤ bonsaiMaxMoney.toNat
      ∧ ∃ tx, exampleInvalidate.build codePrims = .ok tx
        ∧ ¬exampleInvalidate.Conserves codePrims tx exampleChange := by
  decide +kernel

end Examples

end BuilderCall

end BonsaiChain
