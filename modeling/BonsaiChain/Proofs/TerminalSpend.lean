import BonsaiChain.ChainSource
import BonsaiChain.Proofs.Agentd

/-!
# Which spends end an identity

The test reads output 0 alone. A payout there is a pay-to-public-key-hash script, and a recreated
contract never is: its script ends with the version byte of the state section.
-/

namespace BonsaiChain

open Lib

section Templates

theorem isP2pkhOut_buildP2pkhScript (hash160 : Block 20) :
    isP2pkhOut (buildP2pkhScript hash160) = true := by
  obtain ⟨bs, hbs⟩ := hash160
  simp [isP2pkhOut, buildP2pkhScript, hbs]

theorem isP2pkhOut_of_last {script : Bytes} (h : script.getLast? = some 0x00) :
    isP2pkhOut script = false := by
  unfold isP2pkhOut
  by_cases hlen : script.length = 25
  · have hlast : script[24]? = some 0x00 := by
      rw [← h, List.getLast?_eq_getElem?, hlen]
    simp [hlast]
  · simp [hlen]

/-- The last byte of a stateful locking script is the version byte. -/
theorem reconstruct_last {artifact : ScryptArtifact} {ctor values : List ScryptArg}
    {isGenesis : Bool} {script : Bytes} (hstateful : artifact.stateful = true)
    (h : reconstructLockingScript artifact ctor values isGenesis = .ok script) :
    script.getLast? = some 0x00 := by
  obtain ⟨code, state, -, hstate, rfl⟩ := (Covenant.reconstruct_eq_ok hstateful).mp h
  obtain ⟨pushes, -, -, rfl⟩ := Covenant.buildState_eq_ok hstate
  rw [← List.append_assoc, List.getLast?_append]
  rfl

end Templates

section Builders

variable {P : Prims} {utxo : ContractUtxo} {sequence locktime : UInt32} {funding : List FundingUtxo}
  {o : TxOut} {pinned : List TxOut} {req : ChangeRequest} {seed : ℤ} {tx : Tx} {change : UInt64}

/-- What the oracle and the indexer read of a built transaction, signed or not, is its first pinned
output. -/
theorem Built.terminal_eq (hb : Built P utxo sequence funding (o :: pinned) req seed locktime tx
    change) {sigs : List Bytes} {raw : Bytes} (hs : txSerialize (signed tx sigs) = .ok raw) :
    isTerminalSpend (hexEncode raw) = isP2pkhOut o.script := by
  have hdes := txDeserialize_of_lower hs (signed_inputs_lower sigs hb.inputs_lower)
  unfold isTerminalSpend
  rw [hdes, hb.tx_eq]
  rfl

theorem Built.terminal_payout {value : UInt64} {hash160 : Block 20}
    (hb : Built P utxo sequence funding (⟨value, buildP2pkhScript hash160⟩ :: pinned) req seed
      locktime tx change) {sigs : List Bytes} {raw : Bytes}
    (hs : txSerialize (signed tx sigs) = .ok raw) : isTerminalSpend (hexEncode raw) = true := by
  rw [hb.terminal_eq hs]
  exact isP2pkhOut_buildP2pkhScript hash160

theorem Built.terminal_state {value : UInt64} {script : Bytes} {artifact : ScryptArtifact}
    {ctor values : List ScryptArg} {isGenesis : Bool} (hstateful : artifact.stateful = true)
    (hscript : reconstructLockingScript artifact ctor values isGenesis = .ok script)
    (hb : Built P utxo sequence funding (⟨value, script⟩ :: pinned) req seed locktime tx change)
    {sigs : List Bytes} {raw : Bytes} (hs : txSerialize (signed tx sigs) = .ok raw) :
    isTerminalSpend (hexEncode raw) = false := by
  rw [hb.terminal_eq hs]
  exact isP2pkhOut_of_last (reconstruct_last hstateful hscript)

end Builders

namespace TeaMethod

variable {P : Prims} {identity : ContractUtxo} {m : TeaMethod} {tx : Tx}

theorem terminal_signed (hstateful : m.artifact.stateful = true)
    (hok : (m.call identity).build P = .ok tx) {sigs : List Bytes} {raw : Bytes}
    (hs : txSerialize (signed tx sigs) = .ok raw) :
    isTerminalSpend (hexEncode raw) = m.endsIdentity := by
  cases m with
  | executeAction =>
    obtain ⟨pre, script, change, -, hscript, hb⟩ := buildAgentTeaAction_eq_ok hok
    exact hb.terminal_state hstateful hscript hs
  | stake =>
    obtain ⟨balance, script, change, -, hscript, hb⟩ := buildAgentTeaStake_eq_ok hok
    exact hb.terminal_state hstateful hscript hs
  | slashValidator =>
    obtain ⟨change, hb⟩ := buildAgentTeaSlashValidator_eq_ok hok
    exact hb.terminal_payout hs
  | recover =>
    obtain ⟨pre, script, change, -, hscript, hb⟩ := buildAgentTeaRecover_eq_ok hok
    exact hb.terminal_state hstateful hscript hs
  | revokeAgent =>
    obtain ⟨change, -, hb⟩ := buildAgentTeaRevoke_eq_ok hok
    exact hb.terminal_payout hs
  | executeTea =>
    obtain ⟨pre, script, amountSats, change, -, hscript, -, hb⟩ :=
      buildRicardianTeaExecute_eq_ok hok
    exact hb.terminal_state hstateful hscript hs
  | slash =>
    obtain ⟨change, hb⟩ := buildPayoutToPubkey_eq_ok hok
    exact hb.terminal_payout hs
  | updateSlashCheckpoint =>
    obtain ⟨script, change, hscript, hb⟩ := buildRicardianTeaCheckpoint_eq_ok hok
    exact hb.terminal_state hstateful hscript hs
  | revokeRicardian =>
    obtain ⟨change, -, hb⟩ := buildRicardianTeaRevoke_eq_ok hok
    exact hb.terminal_payout hs

/-- A built transaction reads as terminal exactly when its method pays the identity out, before and
after signing. -/
theorem isTerminalSpend_iff (hstateful : m.artifact.stateful = true)
    (hok : (m.call identity).build P = .ok tx) :
    (∀ raw, txSerialize tx = .ok raw →
      (isTerminalSpend (hexEncode raw) = true ↔ m.endsIdentity = true))
    ∧ ∀ sigs raw, txSerialize (signed tx sigs) = .ok raw →
      (isTerminalSpend (hexEncode raw) = true ↔ m.endsIdentity = true) := by
  have hsigned : ∀ sigs raw, txSerialize (signed tx sigs) = .ok raw →
      (isTerminalSpend (hexEncode raw) = true ↔ m.endsIdentity = true) :=
    fun sigs raw hs => by rw [terminal_signed hstateful hok hs]
  refine ⟨fun raw hs => hsigned [] raw ?_, hsigned⟩
  have hnil : signInputs tx.inputs [] = tx.inputs := by
    cases tx.inputs <;> rfl
  unfold signed
  rw [hnil]
  exact hs

open BuilderCall (exampleUtxo exampleFunding exampleChange)

/-- The example identity revoked by its owner. -/
def exampleRevoke : TeaMethod :=
  .revokeAgent exampleAgentTea ⟨exampleFunding, some exampleChange, true, 0, false⟩

theorem isTerminalSpend_iff_revoke :
    ∃ tx raw, (exampleRevoke.call exampleUtxo).build codePrims = .ok tx
      ∧ txSerialize tx = .ok raw ∧ isTerminalSpend (hexEncode raw) = true := by
  obtain ⟨tx, hok, raw, hs, -⟩ :
      ∃ tx, (exampleRevoke.call exampleUtxo).build codePrims = .ok tx
        ∧ ∃ raw, txSerialize tx = .ok raw ∧ True := by
    decide +kernel
  exact ⟨tx, raw, hok, hs, ((isTerminalSpend_iff rfl hok).1 raw hs).mpr rfl⟩

end TeaMethod

end BonsaiChain
