import BonsaiChain.ContractSign
import BonsaiChain.Proofs.BuilderCall
import BonsaiChain.Proofs.ScriptPush
import BonsaiChain.Proofs.Tx
import BonsaiChain.ReputationIndexer

/-!
# Receipts read back

A data output is the push of its data after `OP_0 OP_RETURN`, at every length it is built for, so
the chunk reader gets the data back. In the transactions the builders make, the first output without
value that has a receipt is the one the builder wrote: the state before it has a value, and no
pay-to-public-key-hash script is read as a receipt.
-/

namespace BonsaiChain

open Lib ReputationIndexer

section DataOutput

variable {data : Bytes}

theorem buildOpreturnScript_of_le (h : data.length ≤ 0xffff) :
    buildOpreturnScript data = .ok ([0x00, 0x6a] ++ pushData data) := by
  unfold buildOpreturnScript pushData
  by_cases h0 : data.length = 0
  · obtain rfl := List.length_eq_zero_iff.mp h0
    rfl
  rw [if_neg h0]
  by_cases h75 : data.length ≤ 75
  · rw [if_pos (by omega), if_pos h75]
    rfl
  rw [if_neg (by omega), if_neg h75]
  by_cases h255 : data.length ≤ 0xff
  · rw [if_pos h255, if_pos h255]
    simp
  · rw [if_neg h255, if_neg h255, if_pos h, if_pos h]
    rfl

theorem buildOpreturnScript_of_lt (h : 0xffff < data.length) :
    buildOpreturnScript data = .error .erange := by
  unfold buildOpreturnScript
  rw [if_neg (by omega), if_neg (by omega), if_neg (by omega)]

/-- The three chunks of a data output. -/
def dataChunks (data : Bytes) : List ScriptChunk := [⟨0x00, none⟩, ⟨0x6a, none⟩, pushChunk data]

theorem scriptParse_data (h : data.length ≤ 0xffff) :
    scriptParse ([0x00, 0x6a] ++ pushData data) 64 = .ok (dataChunks data) := by
  have hspells : List.Forall₂ Spells [[0x00], [0x6a], pushData data] (dataChunks data) :=
    .cons (spells_opcode (by decide) (by decide) (by decide) (by decide))
      (.cons (spells_opcode (by decide) (by decide) (by decide) (by decide))
        (.cons (spells_pushData (by omega)) .nil))
  have hflat : [[0x00], [0x6a], pushData data].flatten = [0x00, 0x6a] ++ pushData data := by simp
  rw [← hflat]
  exact scriptParse_of_spells hspells (by simp [dataChunks])

theorem pushChunk_data : (pushChunk data).data.getD [] = data := by
  unfold pushChunk
  by_cases h : data = []
  · simp [h]
  · simp [h]

theorem parseOpreturn_data (h : data.length ≤ 0xffff) :
    parseOpreturn ([0x00, 0x6a] ++ pushData data) = .ok data := by
  unfold parseOpreturn
  rw [scriptParse_data h]
  simp [dataChunks, pushChunk_data]

theorem receiptScript_eq (hash : Block 32) :
    receiptScript hash = [0x00, 0x6a] ++ pushData hash.1 := by
  have h := buildOpreturnScript_of_le (show hash.1.length ≤ 0xffff by rw [hash.2]; omega)
  rw [buildOpreturnScript_hash] at h
  exact Except.ok.inj h

theorem parseReceiptHash_receiptScript (hash : Block 32) :
    parseReceiptHash (receiptScript hash) = .ok hash.1 := by
  have hlen : hash.1.length ≤ 0xffff := by rw [hash.2]; omega
  have hne : hash.1 ≠ [] := by
    intro h
    have := hash.2
    simp [h] at this
  unfold parseReceiptHash
  rw [receiptScript_eq, scriptParse_data hlen]
  simp [dataChunks, pushChunk, hne, hash.2]

theorem parseReceiptHash_p2pkh (hash : Block 20) :
    parseReceiptHash (buildP2pkhScript hash) = .error .eparse := by
  unfold parseReceiptHash buildP2pkhScript
  simp

end DataOutput

section FirstReceipt

variable {os : List TxOut}

theorem firstReceipt_valued {value : UInt64} {script : Bytes} (h : value ≠ 0) :
    firstReceipt (⟨value, script⟩ :: os) = firstReceipt os := by
  simp [firstReceipt, h]

/-- A payment is passed over, whatever its value. -/
theorem firstReceipt_p2pkh {value : UInt64} {hash : Block 20} :
    firstReceipt (⟨value, buildP2pkhScript hash⟩ :: os) = firstReceipt os := by
  by_cases h : value = 0
  · simp [firstReceipt, h, parseReceiptHash_p2pkh]
  · exact firstReceipt_valued h

theorem firstReceipt_receipt {hash : Block 32} :
    firstReceipt (⟨0, receiptScript hash⟩ :: os) = some (hexEncode hash.1) := by
  simp [firstReceipt, parseReceiptHash_receiptScript]

end FirstReceipt

namespace Built

variable {P : Prims} {utxo : ContractUtxo} {sequence : UInt32} {funding : List FundingUtxo}
  {pinned : List TxOut} {req : ChangeRequest} {seed : ℤ} {locktime : UInt32} {tx : Tx}
  {change : UInt64} {hex : CString}

/-- A builder keeps the txids it is given in lower case, so the indexer reads back what was
built. -/
theorem indexerParse (hb : Built P utxo sequence funding pinned req seed locktime tx change)
    (hhex : txBuilderBuildHex tx = .ok hex) :
    indexerParseReceiptHash hex = .ok (firstReceipt (pinned ++ req.outputs change)) := by
  obtain ⟨raw, hraw, rfl⟩ : ∃ raw, txSerialize tx = .ok raw ∧ hexEncode raw = hex := by
    unfold txBuilderBuildHex at hhex
    rcases hs : txSerialize tx with e | raw
    · rw [hs] at hhex
      exact nomatch hhex
    · rw [hs] at hhex
      exact ⟨raw, rfl, Except.ok.inj hhex⟩
  have hlow : ∀ i ∈ tx.inputs, hexToLower i.prevTxidDisplay = i.prevTxidDisplay := by
    intro i hi
    rw [hb.tx_eq] at hi
    rcases List.mem_cons.mp hi with rfl | hi
    · exact hexToLower_hexToLower _
    · obtain ⟨u, -, rfl⟩ := List.mem_map.mp hi
      exact hexToLower_hexToLower _
  unfold indexerParseReceiptHash
  rw [txDeserialize_of_lower hraw hlow]
  have hout : tx.outputs = pinned ++ req.outputs change := by rw [hb.tx_eq]
  simp only [hout]

/-- The outputs of a receipt: a state of some value, payments, the hash. -/
theorem indexerParse_receipt {value : UInt64} {script : Bytes} {hash : Block 32}
    (hb : Built P utxo sequence funding [⟨value, script⟩, ⟨0, receiptScript hash⟩] req seed
      locktime tx change) (hstate : ∀ o ∈ tx.outputs.head?, o.satoshis ≠ 0)
    (hhex : txBuilderBuildHex tx = .ok hex) :
    indexerParseReceiptHash hex = .ok (some (hexEncode hash.1)) := by
  have hvalue : value ≠ 0 := hstate ⟨value, script⟩ (by rw [hb.tx_eq]; rfl)
  rw [hb.indexerParse hhex, List.cons_append, firstReceipt_valued hvalue, List.cons_append,
    firstReceipt_receipt]

theorem indexerParse_paid {value amount : UInt64} {script : Bytes} {payee : Block 20}
    {hash : Block 32}
    (hb : Built P utxo sequence funding
      [⟨value, script⟩, ⟨amount, buildP2pkhScript payee⟩, ⟨0, receiptScript hash⟩] req seed
      locktime tx change) (hstate : ∀ o ∈ tx.outputs.head?, o.satoshis ≠ 0)
    (hhex : txBuilderBuildHex tx = .ok hex) :
    indexerParseReceiptHash hex = .ok (some (hexEncode hash.1)) := by
  have hvalue : value ≠ 0 := hstate ⟨value, script⟩ (by rw [hb.tx_eq]; rfl)
  rw [hb.indexerParse hhex, List.cons_append, firstReceipt_valued hvalue, List.cons_append,
    firstReceipt_p2pkh, List.cons_append, firstReceipt_receipt]

end Built

namespace BuilderCall

/-- The calls that write a receipt. -/
def writesReceipt : BuilderCall → Bool
  | .arpAnnounce .. | .arpActivate .. | .arpCancel .. | .arpInvalidate .. | .agentTeaAction ..
  | .agentTeaRecover .. | .ricardianTeaExecute .. => true
  | _ => false

/-- The receipt hash such a call commits to; the other calls have none. -/
def receiptHash (P : Prims) : BuilderCall → Except Err CString
  | .arpAnnounce c _ bundleHash fileSetRoot now _ =>
    (publisherTeaAnnounceReceipt c bundleHash fileSetRoot now).map fun pre =>
      hexEncode (P.sha256 pre).1
  | .arpActivate c _ activateDigest _ _ =>
    (publisherTeaActivateReceipt c activateDigest).map fun pre => hexEncode (P.sha256 pre).1
  | .arpCancel c _ _ _ => (publisherTeaCancelReceipt c).map fun pre => hexEncode (P.sha256 pre).1
  | .arpInvalidate c _ activateDigest _ _ =>
    (publisherTeaInvalidateReceipt c activateDigest).map fun pre => hexEncode (P.sha256 pre).1
  | .agentTeaAction c _ counterparty amount actionHash provenanceHash now _ =>
    agentTeaReceiptHash P c counterparty amount actionHash provenanceHash now
  | .agentTeaRecover c _ newAgent _ =>
    (agentTeaRecoverPreimage c newAgent).map fun pre => hexEncode (P.sha256 pre).1
  | .ricardianTeaExecute c _ counterparty amount invoiceHash provenanceHash now _ =>
    ricardianTeaReceiptHash P c counterparty amount invoiceHash provenanceHash now
  | _ => .error .einval

/-- The indexer finds in a receipt transaction the hash its builder committed to. -/
theorem indexerParse_build {P : Prims} {call : BuilderCall} {tx : Tx} {hex : CString}
    (hwrites : call.writesReceipt = true) (hok : call.build P = .ok tx)
    (hstate : ∀ o ∈ tx.outputs.head?, o.satoshis ≠ 0) (hhex : txBuilderBuildHex tx = .ok hex) :
    ∃ hash, call.receiptHash P = .ok hash ∧ indexerParseReceiptHash hex = .ok (some hash) := by
  cases call with
  | arpAnnounce | arpActivate | arpCancel | arpInvalidate =>
    simp only [build, buildArpAnnounce, buildArpActivate, buildArpCancel, buildArpInvalidate,
      bind_eq_ok] at hok
    obtain ⟨pre, hpre, hok⟩ := hok
    obtain ⟨script, change, -, hb⟩ := stateAndReceiptTx_eq_ok hok
    exact ⟨_, by rw [receiptHash, hpre]; rfl, hb.indexerParse_receipt hstate hhex⟩
  | agentTeaAction c identity counterparty amount actionHash provenanceHash now opts =>
    obtain ⟨pre, script, change, hpre, -, hb⟩ := buildAgentTeaAction_eq_ok hok
    refine ⟨_, ?_, hb.indexerParse_receipt hstate hhex⟩
    rw [receiptHash, agentTeaReceiptHash, hpre]
    rfl
  | agentTeaRecover c identity newAgent opts =>
    obtain ⟨pre, script, change, hpre, -, hb⟩ := buildAgentTeaRecover_eq_ok hok
    exact ⟨_, by rw [receiptHash, hpre]; rfl, hb.indexerParse_receipt hstate hhex⟩
  | ricardianTeaExecute c identity counterparty amount invoiceHash provenanceHash now opts =>
    obtain ⟨pre, script, amountSats, change, hpre, -, -, hb⟩ := buildRicardianTeaExecute_eq_ok hok
    refine ⟨_, ?_, hb.indexerParse_paid hstate hhex⟩
    rw [receiptHash, ricardianTeaReceiptHash, hpre]
    rfl
  | _ => simp [writesReceipt] at hwrites

/-- Every data a data output is built for is read back from it, and every receipt a builder writes
is the one the indexer finds. -/
theorem receipts_read_back :
    (∀ data : Bytes, data.length ≤ 65535 →
      ∃ script, buildOpreturnScript data = .ok script ∧ parseOpreturn script = .ok data)
    ∧ (∀ data : Bytes, 65535 < data.length → buildOpreturnScript data = .error .erange)
    ∧ ∀ (P : Prims) (call : BuilderCall) (tx : Tx) (hex : CString),
      call.writesReceipt = true → call.build P = .ok tx →
      (∀ o ∈ tx.outputs.head?, o.satoshis ≠ 0) → txBuilderBuildHex tx = .ok hex →
      ∃ hash, call.receiptHash P = .ok hash ∧ indexerParseReceiptHash hex = .ok (some hash) := by
  refine ⟨fun data h => ?_, fun data h => buildOpreturnScript_of_lt h, ?_⟩
  · exact ⟨_, buildOpreturnScript_of_le h, parseOpreturn_data h⟩
  · intro P call tx hex hwrites hok hstate hhex
    exact indexerParse_build hwrites hok hstate hhex

theorem receipts_read_back_invalidate :
    (∃ script, buildOpreturnScript [1, 2, 3] = .ok script ∧ parseOpreturn script = .ok [1, 2, 3])
    ∧ buildOpreturnScript (List.replicate 65536 0) = .error .erange
    ∧ ∃ hex hash, exampleInvalidate.receiptHash codePrims = .ok hash
      ∧ indexerParseReceiptHash hex = .ok (some hash) := by
  obtain ⟨tx, hok, hstate, hex, hhex, -⟩ : ∃ tx, exampleInvalidate.build codePrims = .ok tx
      ∧ (∀ o ∈ tx.outputs.head?, o.satoshis ≠ 0) ∧ ∃ hex, txBuilderBuildHex tx = .ok hex
        ∧ True := by
    decide +kernel
  refine ⟨receipts_read_back.1 _ (by decide), receipts_read_back.2.1 _ ?_, hex, ?_⟩
  · rw [List.length_replicate]
    omega
  · exact receipts_read_back.2.2 _ _ tx hex rfl hok hstate hhex

end BuilderCall

end BonsaiChain
