import BonsaiChain.Proofs.ContractCall
import BonsaiChain.Proofs.Rabin

/-!
# The padding of a guardian's signature

The verifier accepts up to `RABIN_MAX_PADDING_BYTES` zero bytes of padding; the assembler of the
recovery script fills its slots from a buffer of 256.
-/

namespace BonsaiChain

open Lib

section Slots

/-- The push of a guardian's slot. -/
def slotPush (sig : ContractRecoverSig) : Bytes :=
  ctorIntPush (sig.s.getD 0) ++ contractCallPushBytes (List.replicate sig.paddingLen 0)

/-- The push of a guardian's flag. -/
def usedPush (sig : ContractRecoverSig) : Bytes := ctorIntPush (if sig.used then 1 else 0)

theorem recoverSlot_eq (sig : ContractRecoverSig) :
    recoverSlot sig = if 256 < sig.paddingLen then .error .einval else .ok (slotPush sig) := by
  have hroot : recoverRoot sig.s = .ok (ctorIntPush (sig.s.getD 0)) := by
    cases sig.s with
    | none => exact contractCallPushIntI64_eq 0
    | some s => rfl
  unfold recoverSlot slotPush
  rw [hroot, ok_bind]
  split_ifs <;> rfl

theorem mapM_recoverSlot_eq_ok : ∀ {sigs : List ContractRecoverSig} {slots : List Bytes},
    sigs.mapM recoverSlot = .ok slots
      ↔ (∀ sig ∈ sigs, sig.paddingLen ≤ 256) ∧ slots = sigs.map slotPush
  | [], slots => by
    simp only [List.mapM_nil, pure_eq_ok, List.not_mem_nil, false_implies, implies_true, true_and,
      List.map_nil]
    exact eq_comm
  | sig :: sigs, slots => by
    simp only [List.mapM_cons, bind_eq_ok, pure_eq_ok, recoverSlot_eq, error_ite_eq_ok,
      mapM_recoverSlot_eq_ok, List.forall_mem_cons, not_lt, Except.ok.injEq, List.map_cons]
    constructor
    · rintro ⟨_, ⟨hpad, rfl⟩, _, ⟨hrest, rfl⟩, rfl⟩
      exact ⟨⟨hpad, hrest⟩, rfl⟩
    · rintro ⟨⟨hpad, hrest⟩, rfl⟩
      exact ⟨_, ⟨hpad, rfl⟩, _, ⟨hrest, rfl⟩, rfl⟩

theorem mapM_usedPush (sigs : List ContractRecoverSig) :
    sigs.mapM (fun sig => contractCallPushIntI64 (if sig.used then 1 else 0))
      = .ok (sigs.map usedPush) := by
  induction sigs with
  | nil => rfl
  | cons sig sigs ih =>
    have hsig : contractCallPushIntI64 (if sig.used then 1 else 0) = .ok (usedPush sig) := by
      rw [contractCallPushIntI64_eq]
      unfold usedPush
      split_ifs <;> rfl
    rw [List.mapM_cons, hsig, ok_bind, ih, ok_bind]
    rfl

/-- What a recovery pushes behind the slots. -/
def recoverTail (c : ContractSpend) (preimage prevouts : Bytes) : Bytes :=
  contractCallPushBytes preimage ++ ctorIntPush c.changeAmount.toInt
    ++ contractCallPushBytes c.changeHash160.1 ++ contractCallPushBytes prevouts
    ++ ctorIntPush c.methodSelector.toInt

/-- A recovery is assembled if no slot is padded beyond the buffer. -/
theorem contractRecoverScript_eq_ok {P : Prims} {tx : Tx} {c : ContractSpend}
    {newAgent33 : Block 33}
    {sigs : Vector ContractRecoverSig 3} {script : Bytes} :
    contractRecoverScript P tx c newAgent33 sigs = .ok script
      ↔ ∃ preimage prevouts, c.preimage P tx = .ok preimage ∧ contractCallPrevouts tx = .ok prevouts
        ∧ (∀ sig ∈ sigs.toList, sig.paddingLen ≤ 256)
        ∧ script = contractCallPushBytes newAgent33.1 ++ sigs.toList.flatMap usedPush
          ++ sigs.toList.flatMap slotPush ++ recoverTail c preimage prevouts := by
  simp only [contractRecoverScript, mapM_usedPush]
  simp only [contractCallPushIntI64_eq, ok_bind, bind_eq_ok, pure_eq_ok, mapM_recoverSlot_eq_ok]
  constructor
  · rintro ⟨preimage, hpre, prevouts, hprev, slots, ⟨hpad, rfl⟩, rfl⟩
    refine ⟨preimage, prevouts, hpre, hprev, hpad, ?_⟩
    simp only [recoverTail, List.flatMap_def, List.append_assoc]
  · rintro ⟨preimage, prevouts, hpre, hprev, hpad, rfl⟩
    refine ⟨preimage, hpre, prevouts, hprev, _, ⟨hpad, rfl⟩, ?_⟩
    simp only [recoverTail, List.flatMap_def, List.append_assoc]

end Slots

section Padding

/-- A guardian's signature goes into every recovery that can be assembled around it: where the slot
is filled without padding, it is filled in the same place with the root and as many zero bytes. -/
def RecoverEmits (P : Prims) (s : ℤ) (pad : ℕ) : Prop :=
  ∀ (tx : Tx) (c : ContractSpend) (newAgent33 : Block 33)
    (sigs unpadded : Vector ContractRecoverSig 3)
    (before behind : List ContractRecoverSig) (script : Bytes),
    sigs.toList = before ++ ⟨true, some s, pad⟩ :: behind →
    unpadded.toList = before ++ ⟨true, some s, 0⟩ :: behind →
    contractRecoverScript P tx c newAgent33 unpadded = .ok script →
    ∃ tail, script = contractCallPushBytes newAgent33.1 ++ sigs.toList.flatMap usedPush
        ++ before.flatMap slotPush ++ (ctorIntPush s ++ contractCallPushBytes []) ++ tail
      ∧ contractRecoverScript P tx c newAgent33 sigs
        = .ok (contractCallPushBytes newAgent33.1 ++ sigs.toList.flatMap usedPush
          ++ before.flatMap slotPush
          ++ (ctorIntPush s ++ contractCallPushBytes (List.replicate pad 0)) ++ tail)

theorem recoverEmits_of_le {P : Prims} {s : ℤ} {pad : ℕ} (h : pad ≤ 256) :
    RecoverEmits P s pad := by
  intro tx c newAgent33 sigs unpadded before behind script hsigs hunpadded hscript
  obtain ⟨preimage, prevouts, hpre, hprev, hpad, rfl⟩ := contractRecoverScript_eq_ok.1 hscript
  have hpads : ∀ sig ∈ sigs.toList, sig.paddingLen ≤ 256 := by
    rw [hunpadded] at hpad
    rw [hsigs]
    intro sig hsig
    rcases List.mem_append.1 hsig with hsig | hsig
    · exact hpad sig (List.mem_append_left _ hsig)
    · rcases List.mem_cons.1 hsig with rfl | hsig
      · exact h
      · exact hpad sig (List.mem_append_right _ (List.mem_cons_of_mem _ hsig))
  refine ⟨behind.flatMap slotPush ++ recoverTail c preimage prevouts, ?_, ?_⟩
  · rw [hsigs, hunpadded]
    simp [slotPush, usedPush]
  · refine contractRecoverScript_eq_ok.2 ⟨preimage, prevouts, hpre, hprev, hpads, ?_⟩
    rw [hsigs]
    simp [slotPush]

/-- A transaction with an input to recover. -/
def recoverTx : Tx := ⟨1, [⟨List.replicate 64 48, 0, [], 0⟩], [], 0⟩

def recoverSpend : ContractSpend := ⟨0, [], 1, 0, ⟨List.replicate 20 0, rfl⟩, 3⟩

/-- The recovery with one guardian. -/
def guardianSlots (s : ℤ) (pad : ℕ) : Vector ContractRecoverSig 3 :=
  #v[⟨true, some s, pad⟩, ⟨false, none, 0⟩, ⟨false, none, 0⟩]

theorem contractRecoverScript_unpadded (P : Prims) (s : ℤ) :
    ∃ script, contractRecoverScript P recoverTx recoverSpend ⟨List.replicate 33 2, rfl⟩
      (guardianSlots s 0) = .ok script := by
  have hpads : ∀ sig ∈ (guardianSlots s 0).toList, sig.paddingLen ≤ 256 := by simp [guardianSlots]
  exact ⟨_, contractRecoverScript_eq_ok.2 ⟨_, _, rfl, rfl, hpads, rfl⟩⟩

theorem le_of_recoverEmits {P : Prims} {s : ℤ} {pad : ℕ} (h : RecoverEmits P s pad) :
    pad ≤ 256 := by
  obtain ⟨script, hscript⟩ := contractRecoverScript_unpadded P s
  obtain ⟨tail, -, hok⟩ := h recoverTx recoverSpend ⟨List.replicate 33 2, rfl⟩ (guardianSlots s pad)
    (guardianSlots s 0) [] [⟨false, none, 0⟩, ⟨false, none, 0⟩] script rfl rfl hscript
  obtain ⟨-, -, -, -, hpads, -⟩ := contractRecoverScript_eq_ok.1 hok
  exact hpads ⟨true, some s, pad⟩ (by simp [guardianSlots])

/-- Of the signatures the verifier accepts, those with at most 256 bytes of padding go into a
recovery. -/
theorem recoverEmits_iff (P : Prims) (msg : Bytes) (n s : ℤ) (pad : ℕ) :
    (rabinVerify P.sha256 msg s pad n = true → RecoverEmits P s pad)
      ↔ (rabinVerify P.sha256 msg s pad n = true → pad ≤ 256) :=
  forall_congr' fun _ => ⟨le_of_recoverEmits, recoverEmits_of_le⟩

/-- A signature of a recovery message whose hash has a root behind 258 zero bytes. -/
theorem recoverEmits_refuses_258 :
    ∃ msg, agentTeaRecoveryMsg (List.replicate 32 7) ⟨List.replicate 33 2, rfl⟩ 0 = .ok msg
      ∧ rabinVerify sha256 msg 301462 258 (1019 * 1039) = true
      ∧ contractRecoverScript codePrims recoverTx recoverSpend ⟨List.replicate 33 2, rfl⟩
          (guardianSlots 301462 258) = .error .einval := by
  decide +kernel

end Padding

end BonsaiChain
