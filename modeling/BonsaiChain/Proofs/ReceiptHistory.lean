import BonsaiChain.Proofs.ReputationIndexer
import BonsaiChain.ReceiptHistory

/-!
# Whole histories

On an indexed chain without cycles the forward walk from the genesis and the backward walk from the
unspent tip collect the receipts of the lineage in one order. The forward walk returns a history
that is not whole exactly when the lineage goes on past its cap.
-/

namespace BonsaiChain

open Lib Relation ReputationIndexer

section Straight

/-- The display txid of the transaction with the number `k`, and back. -/
def numberedTxid (k : ℕ) : CString := hexEncode (leBytes 32 k)

def numberOf (txid : CString) : ℕ :=
  match hexDecode txid with
  | .ok bs => leNat bs
  | .error _ => 0

theorem numberOf_numberedTxid {k : ℕ} (h : k < 2 ^ 64) : numberOf (numberedTxid k) = k := by
  unfold numberOf numberedTxid
  rw [hexDecode_hexEncode]
  exact leNat_leBytes_of_lt (h.trans (by decide))

/-- The transaction with the number `k + 1` spends output 0 of number `k` and recreates the
identity; the last one carries a receipt. -/
def straightTx (last k : ℕ) : Tx where
  version := 1
  inputs := [⟨numberedTxid k, 0, [], 0xffffffff⟩]
  outputs :=
    if k + 1 = last then [⟨1, [0x51]⟩, ⟨0, [0x00, 0x6a, 0x20] ++ List.replicate 32 7⟩]
    else [⟨1, [0x51]⟩]
  locktime := 0

theorem straightTx_ok (last k : ℕ) : (straightTx last k).Ok := by
  have hin : IsTxid (numberedTxid k) := ⟨leBytes 32 k, leBytes_length 32 k, rfl⟩
  refine ⟨by simpa [straightTx, TxIn.Ok] using hin, ?_, by simp [straightTx], ?_⟩
  · unfold straightTx
    split_ifs <;> simp [TxOut.Ok]
  · unfold straightTx
    split_ifs <;> simp

/-- The number of a transaction of the chain behind its genesis. -/
def IsNumbered (last : ℕ) (txid : CString) : Prop :=
  txid = numberedTxid (numberOf txid) ∧ 0 < numberOf txid ∧ numberOf txid ≤ last

instance (last : ℕ) (txid : CString) : Decidable (IsNumbered last txid) :=
  inferInstanceAs (Decidable (_ ∧ _ ∧ _))

theorem isNumbered_succ {last k : ℕ} (hlast : last < 2 ^ 64) (hk : k < last) :
    IsNumbered last (numberedTxid (k + 1)) := by
  have hnum := numberOf_numberedTxid (show k + 1 < 2 ^ 64 by omega)
  unfold IsNumbered
  rw [hnum]
  exact ⟨rfl, Nat.succ_pos k, hk⟩

/-- The chain of the transactions with the numbers 0 to `last`, each of which spends the one before
it. -/
def straightChain (last : ℕ) (hlast : last < 2 ^ 64) : Chain where
  spender txid vout :=
    if vout = 0 ∧ txid = numberedTxid (numberOf txid) ∧ numberOf txid < last then
      some (numberedTxid (numberOf txid + 1))
    else none
  rawTx txid :=
    if IsNumbered last txid then
      some (RawTx.ofTx (straightTx last (numberOf txid - 1)) (straightTx_ok _ _))
    else none
  spenderRaw txid vout s h := by
    split_ifs at h with hs
    obtain rfl := Option.some.inj h
    simp [isNumbered_succ hlast hs.2.2]

variable {last k : ℕ} {hlast : last < 2 ^ 64} {txid s : CString} {vout : UInt32}

theorem straightChain_spender (hk : k < last) :
    (straightChain last hlast).spender (numberedTxid k) 0 = some (numberedTxid (k + 1)) := by
  have hnum := numberOf_numberedTxid (hk.trans hlast)
  simp [straightChain, hnum, hk]

theorem straightChain_unspent :
    (straightChain last hlast).spender (numberedTxid last) 0 = none := by
  have hnum := numberOf_numberedTxid hlast
  simp [straightChain, hnum]

theorem straightChain_rawTx (hk : k < last) :
    (straightChain last hlast).rawTx (numberedTxid (k + 1))
      = some (RawTx.ofTx (straightTx last k) (straightTx_ok last k)) := by
  have hnum := numberOf_numberedTxid (show k + 1 < 2 ^ 64 by omega)
  simp [straightChain, isNumbered_succ hlast hk, hnum]

theorem straightTx_live : (straightTx last k).terminal = false := by
  unfold straightTx Tx.terminal
  split_ifs <;> rfl

theorem firstReceipt_straightTx : firstReceipt (straightTx last k).outputs
    = if k + 1 = last then some (hexEncode (List.replicate 32 7)) else none := by
  unfold straightTx
  dsimp only
  split_ifs <;> decide +kernel

theorem straightChain_indexed : (straightChain last hlast).Indexed := by
  intro s r hraw i hi
  have hs : IsNumbered last s := by
    by_contra hs
    simp [straightChain, hs] at hraw
  obtain ⟨hnum, hpos, hle⟩ := hs
  obtain ⟨k, hk⟩ : ∃ k, numberOf s = k + 1 := ⟨numberOf s - 1, by omega⟩
  rw [hk] at hnum hle
  subst hnum
  rw [straightChain_rawTx hle] at hraw
  obtain rfl := Option.some.inj hraw
  obtain rfl : i = ⟨numberedTxid k, 0, [], 0xffffffff⟩ := by
    simpa [RawTx.ofTx, straightTx] using hi
  exact straightChain_spender hle

theorem straightChain_acyclic : (straightChain last hlast).Acyclic := by
  have hlt : ∀ txid s, (straightChain last hlast).SpentBy txid s → numberOf txid < numberOf s := by
    rintro txid s ⟨vout, h⟩
    simp only [straightChain, Option.ite_none_right_eq_some, Option.some.injEq] at h
    obtain ⟨⟨-, -, hk⟩, rfl⟩ := h
    rw [numberOf_numberedTxid (by omega)]
    exact Nat.lt_succ_self _
  have htrans : ∀ txid s, TransGen (straightChain last hlast).SpentBy txid s →
      numberOf txid < numberOf s := by
    intro txid s h
    induction h with
    | single h => exact hlt _ _ h
    | tail _ h ih => exact ih.trans (hlt _ _ h)
  exact fun txid h => Nat.lt_irrefl _ (htrans txid txid h)

theorem straightChain_receiptOf (hk : k < last) (markValid : CString → Int → CString → Bool)
    (time : CString → Int) :
    (straightChain last hlast).receiptOf markValid time (numberedTxid (k + 1))
      = if k + 1 = last then
          [⟨(numberedTxid (k + 1)).take 64, time (numberedTxid (k + 1)),
            (hexEncode (List.replicate 32 7)).take 64,
            markValid ((numberedTxid (k + 1)).take 64) (time (numberedTxid (k + 1)))
              ((hexEncode (List.replicate 32 7)).take 64), false⟩]
        else [] := by
  unfold Chain.receiptOf
  rw [straightChain_rawTx hk, Option.bind_some]
  simp only [RawTx.ofTx, firstReceipt_straightTx]
  by_cases h : k + 1 = last
  · rw [if_pos h, if_pos h]
  · rw [if_neg h, if_neg h]

/-- Behind number `last - n` the lineage has the `n` transactions up to the last one. -/
theorem straightChain_lineage : ∀ {n k : ℕ}, k + n = last → (straightChain last hlast).Lineage
    (numberedTxid k) 0 ((List.range' (k + 1) n).map numberedTxid)
  | 0, k, hk => by
    obtain rfl : k = last := hk
    exact .tip straightChain_unspent
  | n + 1, k, hk => by
    rw [List.range'_succ, List.map_cons]
    exact .next (straightChain_rawTx (by omega)) rfl ⟨rfl, rfl⟩ straightTx_live
      (straightChain_lineage (by omega))

end Straight

section BothWays

variable {c : Chain} {time : CString → Int} {markValid : CString → Int → CString → Bool}
  {genesis txid s : CString} {vout : UInt32} {ts : List CString} {rs : List TeaReceipt} {r : RawTx}

theorem indexerParseReceiptHash_hex (r : RawTx) :
    indexerParseReceiptHash r.hex = .ok (firstReceipt r.tx.outputs) := by
  simp [indexerParseReceiptHash, r.parses]

theorem isTerminalSpend_hex (r : RawTx) : isTerminalSpend r.hex = r.tx.terminal := by
  simp [isTerminalSpend, r.parses]

/-- Collecting from the chain's own source appends what the transaction carries. -/
theorem collectReceipt_source (markValid : CString → Int → CString → Bool) (time : CString → Int)
    (rs : List TeaReceipt) (hraw : c.rawTx s = some r) :
    collectReceipt markValid (c.source time) s (firstReceipt r.tx.outputs) rs
      = .ok (rs ++ c.receiptOf markValid time s) := by
  unfold Chain.receiptOf
  rw [hraw, Option.bind_some]
  cases firstReceipt r.tx.outputs with
  | none => simp [collectReceipt]
  | some hash => simp [collectReceipt, Chain.source]

theorem receiptOf_reverse (c : Chain) (markValid : CString → Int → CString → Bool)
    (time : CString → Int) (txid : CString) :
    (c.receiptOf markValid time txid).reverse = c.receiptOf markValid time txid := by
  unfold Chain.receiptOf
  split <;> rfl

/-- A hop forward onto a transaction that recreates the identity. -/
theorem collectHop_live (hraw : c.rawTx s = some r) (hspent : c.spender txid vout = some s)
    (hlive : r.tx.terminal = false) :
    collectHop markValid (c.source time) ⟨txid, vout, rs⟩
      = .inr ⟨s, 0, rs ++ c.receiptOf markValid time s⟩ := by
  have hreceipt := collectReceipt_source markValid time rs hraw
  have hget : (c.source time).getRawTx s = .ok (some r.hex) := by simp [Chain.source, hraw]
  have hspend : (c.source time).getSpendingTxid txid vout = .ok (some s) := by
    simp [Chain.source, hspent]
  simp [collectHop, hspend, hget, isTerminalSpend_hex, hlive, indexerParseReceiptHash_hex, hreceipt]

/-- A hop backward from a transaction that recreates the identity. -/
theorem backwardHop_live {i : TxIn} (hraw : c.rawTx s = some r) (hin : r.tx.inputs[0]? = some i)
    (hlive : r.tx.terminal = false) (hne : s ≠ genesis) :
    backwardHop markValid (c.source time) genesis 0 ⟨s, rs⟩
      = .inr ⟨i.prevTxidDisplay, rs ++ c.receiptOf markValid time s⟩ := by
  have hreceipt := collectReceipt_source markValid time rs hraw
  have hget : (c.source time).getRawTx s = .ok (some r.hex) := by simp [Chain.source, hraw]
  have hprev : parsePrevout r.hex 0 = .ok ⟨i.prevTxidDisplay, i.vout⟩ := by
    simp [parsePrevout, r.parses, hin]
  simp [backwardHop, hne, hget, isTerminalSpend_hex, hlive, indexerParseReceiptHash_hex, hreceipt,
    hprev]

theorem Chain.Indexed.spender_eq {i : TxIn} (hindex : c.Indexed) (hraw : c.rawTx s = some r)
    (hin : r.tx.inputs[0]? = some i) (hprev : i.prevTxidDisplay = txid ∧ i.vout = vout) :
    c.spender txid vout = some s := by
  obtain ⟨rfl, rfl⟩ := hprev
  exact hindex s r hraw i (List.mem_of_getElem? hin)

/-- The identity transactions descend from the genesis, so none of them is the genesis. -/
theorem Chain.Lineage.descends (h : c.Lineage txid vout ts) (hindex : c.Indexed) :
    ∀ t ∈ ts, TransGen c.SpentBy txid t := by
  induction h with
  | tip => simp
  | @next txid s vout ts r i hraw hin hprev hlive _ ih =>
    have hspent : c.SpentBy txid s := ⟨vout, hindex.spender_eq hraw hin hprev⟩
    intro t ht
    rcases List.mem_cons.mp ht with rfl | ht
    · exact .single hspent
    · exact .head hspent (ih t ht)

theorem Chain.Lineage.genesis_notMem (h : c.Lineage genesis vout ts) (hindex : c.Indexed)
    (hacyclic : c.Acyclic) : genesis ∉ ts :=
  fun hmem => hacyclic genesis (h.descends hindex genesis hmem)

/-- The forward walk stands at the tip with all receipts. -/
theorem Chain.Lineage.reaches_forward (markValid : CString → Int → CString → Bool)
    (time : CString → Int) (h : c.Lineage txid vout ts) (hindex : c.Indexed) :
    ∀ (i : ℕ) (rs : List TeaReceipt), ∃ tip w, c.spender tip w = none
      ∧ Reaches (fun _ => collectHop markValid (c.source time)) i ⟨txid, vout, rs⟩ (i + ts.length)
        ⟨tip, w, rs ++ ts.flatMap (c.receiptOf markValid time)⟩ := by
  induction h with
  | @tip txid vout hunspent =>
    intro i rs
    refine ⟨txid, vout, hunspent, ?_⟩
    simpa using Reaches.refl i (Cursor.mk txid vout rs)
  | @next txid s vout ts r i hraw hin hprev hlive _ ih =>
    intro k rs
    obtain ⟨tip, w, htip, hreach⟩ := ih (k + 1) (rs ++ c.receiptOf markValid time s)
    refine ⟨tip, w, htip, .head (collectHop_live hraw (hindex.spender_eq hraw hin hprev) hlive) ?_⟩
    rw [List.length_cons, List.flatMap_cons, ← List.append_assoc, ← Nat.add_assoc,
      Nat.add_right_comm]
    exact hreach

/-- The backward walk stands at the first transaction with all receipts, newest first. -/
theorem Chain.Lineage.reaches_backward (markValid : CString → Int → CString → Bool)
    (time : CString → Int) (h : c.Lineage txid vout ts) (hgenesis : genesis ∉ ts) :
    Reaches (fun _ => backwardHop markValid (c.source time) genesis 0) 0
      ⟨ts.getLastD txid, []⟩ ts.length
      ⟨txid, ts.reverse.flatMap (c.receiptOf markValid time)⟩ := by
  induction h with
  | tip => exact .refl _ _
  | @next txid s vout ts r i hraw hin hprev hlive _ ih =>
    obtain ⟨hne, hgenesis⟩ := not_or.mp (List.mem_cons.not.mp hgenesis)
    obtain ⟨rfl, -⟩ := hprev
    rw [List.getLastD_cons, List.length_cons, List.reverse_cons,
      List.flatMap_append, List.flatMap_singleton]
    exact (ih hgenesis).snoc (backwardHop_live hraw hin hlive (Ne.symm hne))

theorem collectReceipts_lineage (h : c.Lineage genesis vout ts) (hindex : c.Indexed)
    (hlen : ts.length ≤ maxHops) :
    collectReceipts markValid (fun _ => c.source time) genesis vout
      = .ok (ts.flatMap (c.receiptOf markValid time)) := by
  obtain ⟨tip, w, htip, hreach⟩ := h.reaches_forward markValid time hindex 0 []
  rw [Nat.zero_add, List.nil_append] at hreach
  unfold collectReceipts collectWalk
  by_cases hlt : ts.length < maxHops
  · have hend : collectHop markValid (c.source time)
        ⟨tip, w, ts.flatMap (c.receiptOf markValid time)⟩
        = .inl (.unspent (ts.flatMap (c.receiptOf markValid time))) := by
      simp [collectHop, Chain.source, htip]
    rw [loop_eq_inl.mpr ⟨_, _, by omega, hreach, hend⟩]
  · rw [loop_eq_inr.mpr (by rwa [Nat.zero_add, ← Nat.le_antisymm hlen (Nat.le_of_not_lt hlt)])]

theorem backwardWalk_lineage {hops : ℕ} (markValid : CString → Int → CString → Bool)
    (time : CString → Int) (h : c.Lineage genesis vout ts) (hgenesis : genesis ∉ ts)
    (hlen : ts.length ≤ backwardBudget hops) :
    backwardWalk markValid (fun _ => c.source time)
        (ts.getLastD genesis) genesis 0 hops
      = .ok (ts.reverse.flatMap (c.receiptOf markValid time)) := by
  have hreach := h.reaches_backward markValid time hgenesis
  unfold backwardWalk
  by_cases hlt : ts.length < backwardBudget hops
  · rw [loop_eq_inl.mpr ⟨ts.length, _, by omega, hreach, if_pos rfl⟩]
  · rw [loop_eq_inr.mpr (by rwa [Nat.zero_add, ← Nat.le_antisymm hlen (Nat.le_of_not_lt hlt)])]
    exact if_pos rfl

/-- Both walks return the receipts of the lineage, oldest first. -/
theorem collectReceipts_eq_backward (markValid : CString → Int → CString → Bool)
    (time : CString → Int) (hops : ℕ) (hindex : c.Indexed) (hacyclic : c.Acyclic)
    (h : c.Lineage genesis vout ts) (hforward : ts.length ≤ maxHops)
    (hbackward : ts.length ≤ backwardBudget hops) :
    collectReceipts markValid (fun _ => c.source time) genesis vout
        = .ok (ts.flatMap (c.receiptOf markValid time))
      ∧ collectReceiptsBackward markValid (fun _ => c.source time)
          (ts.getLastD genesis) genesis 0 hops
        = .ok (ts.flatMap (c.receiptOf markValid time)) := by
  refine ⟨collectReceipts_lineage h hindex hforward, ?_⟩
  have hwalk := backwardWalk_lineage markValid time h
    (h.genesis_notMem hindex hacyclic) hbackward
  unfold collectReceiptsBackward
  rw [hwalk]
  simp [List.reverse_flatMap, Function.comp_def, receiptOf_reverse]

theorem collectReceipts_eq_backward_two : ∃ rs, rs.length = 1
    ∧ collectReceipts (fun _ _ _ => true) (fun _ => (straightChain 2 (by decide)).source fun _ => 0)
        (numberedTxid 0) 0 = .ok rs
    ∧ collectReceiptsBackward (fun _ _ _ => true)
        (fun _ => (straightChain 2 (by decide)).source fun _ => 0)
        (numberedTxid 2) (numberedTxid 0) 0
        0 = .ok rs := by
  have hlineage : (straightChain 2 (by decide)).Lineage (numberedTxid 0) 0
      [numberedTxid 1, numberedTxid 2] := straightChain_lineage (n := 2) rfl
  have hwalks := collectReceipts_eq_backward (fun _ _ _ => true) (fun _ => 0) 0
    straightChain_indexed straightChain_acyclic hlineage (by simp [maxHops])
    (by simp [backwardBudget, maxBackwardHops])
  refine ⟨_, ?_, hwalks⟩
  decide +kernel

end BothWays

section Complete

/-- The identity stands at an outpoint after `i` spenders that recreate it, whose receipts are the
given ones. -/
inductive Visits (markValid : CString → Int → CString → Bool) (srcs : ℕ → ChainSource)
    (genesis : CString) (vout : UInt32) : ℕ → CString → UInt32 → List TeaReceipt → Prop
  | start : Visits markValid srcs genesis vout 0 genesis vout []
  | next {i : ℕ} {txid s raw : CString} {w : UInt32} {hash : Option CString}
      {rs rs' : List TeaReceipt} (h : Visits markValid srcs genesis vout i txid w rs)
      (hs : Spends (srcs i) w txid s raw) (hlive : isTerminalSpend raw = false)
      (hhash : indexerParseReceiptHash raw = .ok hash)
      (hreceipt : collectReceipt markValid (srcs i) s hash rs = .ok rs') :
      Visits markValid srcs genesis vout (i + 1) s 0 rs'

/-- The receipts are those of the whole lineage, which ends at an unspent output or at a terminal
spend. -/
def CompleteHistory (markValid : CString → Int → CString → Bool) (srcs : ℕ → ChainSource)
    (genesis : CString) (vout : UInt32) (rs : List TeaReceipt) : Prop :=
  ∃ i txid w, Visits markValid srcs genesis vout i txid w rs ∧ EndsAt (srcs i) w txid

variable {markValid : CString → Int → CString → Bool} {src : ChainSource} {srcs : ℕ → ChainSource}
  {genesis txid : CString} {vout w : UInt32} {n : ℕ} {cur cur' : Cursor} {rs rs' : List TeaReceipt}

/-- What one hop does, for each kind of answer. -/
theorem collectHop_cases (markValid : CString → Int → CString → Bool) (src : ChainSource)
    (cur : Cursor) :
    (src.getSpendingTxid cur.txid cur.vout = .ok none
        ∧ collectHop markValid src cur = .inl (.unspent cur.receipts))
      ∨ (∃ s raw, Spends src cur.vout cur.txid s raw ∧ isTerminalSpend raw = true
        ∧ collectHop markValid src cur = .inl (.terminal cur.receipts))
      ∨ ¬EndsAt src cur.vout cur.txid
        ∧ ((∃ e, collectHop markValid src cur = .inl (.failed e))
          ∨ ∃ s raw hash rs, Spends src cur.vout cur.txid s raw ∧ isTerminalSpend raw = false
            ∧ indexerParseReceiptHash raw = .ok hash
            ∧ collectReceipt markValid src s hash cur.receipts = .ok rs
            ∧ collectHop markValid src cur = .inr ⟨s, 0, rs⟩) := by
  cases hs : src.getSpendingTxid cur.txid cur.vout with
  | error e => exact .inr (.inr ⟨by simp [EndsAt, Spends, hs], .inl ⟨e, by simp [collectHop, hs]⟩⟩)
  | ok a =>
    cases a with
    | none => exact .inl ⟨rfl, by simp [collectHop, hs]⟩
    | some s =>
      cases hr : src.getRawTx s with
      | error e =>
        exact .inr (.inr ⟨by simp [EndsAt, Spends, hs, hr], .inl ⟨e, by simp [collectHop, hs, hr]⟩⟩)
      | ok a =>
        cases a with
        | none =>
          exact .inr (.inr ⟨by simp [EndsAt, Spends, hs, hr],
            .inl ⟨.eparse, by simp [collectHop, hs, hr]⟩⟩)
        | some raw =>
          by_cases ht : isTerminalSpend raw = true
          · exact .inr (.inl ⟨s, raw, ⟨hs, hr⟩, ht, by simp [collectHop, hs, hr, ht]⟩)
          · refine .inr (.inr ⟨by simp [EndsAt, Spends, hs, hr, ht], ?_⟩)
            cases hhash : indexerParseReceiptHash raw with
            | error e => exact .inl ⟨e, by simp [collectHop, hs, hr, ht, hhash]⟩
            | ok hash =>
              cases hrs : collectReceipt markValid src s hash cur.receipts with
              | error e => exact .inl ⟨e, by simp [collectHop, hs, hr, ht, hhash, hrs]⟩
              | ok rs =>
                exact .inr ⟨s, raw, hash, rs, ⟨hs, hr⟩, by simpa using ht, hhash, hrs,
                  by simp [collectHop, hs, hr, ht, hhash, hrs]⟩

theorem collectHop_eq_next : collectHop markValid src cur = .inr cur' ↔
    ∃ raw hash, Spends src cur.vout cur.txid cur'.txid raw ∧ isTerminalSpend raw = false
      ∧ indexerParseReceiptHash raw = .ok hash
      ∧ collectReceipt markValid src cur'.txid hash cur.receipts = .ok cur'.receipts
      ∧ cur'.vout = 0 := by
  constructor
  · intro h
    rcases collectHop_cases markValid src cur with
      ⟨-, h'⟩ | ⟨s, raw, -, -, h'⟩ | ⟨-, ⟨e, h'⟩ | ⟨s, raw, hash, rs, hs, ht, hhash, hrs, h'⟩⟩ <;>
      rw [h] at h' <;> simp only [reduceCtorEq, Sum.inr.injEq] at h'
    subst h'
    exact ⟨raw, hash, hs, ht, hhash, hrs, rfl⟩
  · rintro ⟨raw, hash, hs, ht, hhash, hrs, hv⟩
    obtain ⟨s, v, rs⟩ := cur'
    obtain rfl : v = 0 := hv
    simp [collectHop, hs.1, hs.2, ht, hhash, hrs]

/-- The hop that returns receipts is the one at which the lineage ends, and returns what it has. -/
theorem collectHop_eq_end :
    (collectHop markValid src cur = .inl (.unspent rs)
        ∨ collectHop markValid src cur = .inl (.terminal rs)) ↔
      rs = cur.receipts ∧ EndsAt src cur.vout cur.txid := by
  rcases collectHop_cases markValid src cur with
    ⟨hu, h⟩ | ⟨s, raw, hs, ht, h⟩ | ⟨hend, ⟨e, h⟩ | ⟨s, raw, hash, rs', -, -, -, -, h⟩⟩
  · have hend : EndsAt src cur.vout cur.txid := .inl hu
    simp [h, hend, eq_comm]
  · have hend : EndsAt src cur.vout cur.txid := .inr ⟨s, raw, hs, ht⟩
    simp [h, hend, eq_comm]
  · simp [h, hend]
  · simp [h, hend]

theorem collectHop_of_endsAt (rs : List TeaReceipt) (hend : EndsAt src w txid) :
    collectHop markValid src ⟨txid, w, rs⟩ = .inl (.unspent rs)
      ∨ collectHop markValid src ⟨txid, w, rs⟩ = .inl (.terminal rs) :=
  collectHop_eq_end.mpr ⟨rfl, hend⟩

theorem collectHop_ne_hopLimit : collectHop markValid src cur ≠ .inl (.hopLimit rs) := by
  rcases collectHop_cases markValid src cur with
    ⟨-, h⟩ | ⟨s, raw, -, -, h⟩ | ⟨-, ⟨e, h⟩ | ⟨s, raw, hash, rs', -, -, -, -, h⟩⟩ <;> simp [h]

theorem visits_iff_reaches : Visits markValid srcs genesis vout n txid w rs ↔
    Reaches (fun i => collectHop markValid (srcs i)) 0 ⟨genesis, vout, []⟩ n ⟨txid, w, rs⟩ := by
  constructor
  · intro h
    induction h with
    | start => exact .refl _ _
    | next _ hs hlive hhash hreceipt ih =>
      exact ih.snoc (collectHop_eq_next.mpr ⟨_, _, hs, hlive, hhash, hreceipt, rfl⟩)
  · suffices ∀ i cur cur', Reaches (fun i => collectHop markValid (srcs i)) i cur n cur' →
        Visits markValid srcs genesis vout i cur.txid cur.vout cur.receipts →
        Visits markValid srcs genesis vout n cur'.txid cur'.vout cur'.receipts from
      fun h => this 0 _ _ h .start
    intro i cur cur' h
    induction h with
    | refl => exact id
    | @head i _ cur next _ hstep _ ih =>
      obtain ⟨raw, hash, hs, hlive, hhash, hreceipt, hv⟩ := collectHop_eq_next.mp hstep
      intro hvisits
      refine ih ?_
      rw [hv]
      exact hvisits.next hs hlive hhash hreceipt

/-- A walk that reaches its cap returns what it has there. -/
theorem collectReceipts_of_cap (h : Visits markValid srcs genesis vout maxHops txid w rs) :
    collectReceipts markValid srcs genesis vout = .ok rs := by
  unfold collectReceipts collectWalk
  rw [loop_eq_inr.mpr (by rw [Nat.zero_add]; exact visits_iff_reaches.mp h)]

theorem collectReceipts_eq_ok (h : collectReceipts markValid srcs genesis vout = .ok rs) :
    (∃ i txid w, i < maxHops ∧ Visits markValid srcs genesis vout i txid w rs
        ∧ EndsAt (srcs i) w txid)
      ∨ ∃ txid w, Visits markValid srcs genesis vout maxHops txid w rs := by
  unfold collectReceipts collectWalk at h
  rcases hloop : loop (fun i => collectHop markValid (srcs i)) maxHops 0 ⟨genesis, vout, []⟩
    with e | cur
  · obtain ⟨i, cur, hi, hreach, hhop⟩ := loop_eq_inl.mp hloop
    have hvisits := visits_iff_reaches.mpr hreach
    rw [Nat.zero_add] at hi
    rw [hloop] at h
    refine .inl ⟨i, cur.txid, cur.vout, hi, ?_⟩
    cases e with
    | unspent rs' =>
      obtain rfl : rs' = rs := Except.ok.inj h
      obtain ⟨rfl, hend⟩ := collectHop_eq_end.mp (.inl hhop)
      exact ⟨hvisits, hend⟩
    | terminal rs' =>
      obtain rfl : rs' = rs := Except.ok.inj h
      obtain ⟨rfl, hend⟩ := collectHop_eq_end.mp (.inr hhop)
      exact ⟨hvisits, hend⟩
    | hopLimit rs' => exact absurd hhop collectHop_ne_hopLimit
    | failed e => cases h
  · have hreach := loop_eq_inr.mp hloop
    rw [Nat.zero_add] at hreach
    rw [hloop] at h
    obtain rfl : cur.receipts = rs := Except.ok.inj h
    exact .inr ⟨cur.txid, cur.vout, visits_iff_reaches.mpr hreach⟩

/-- A lineage that has been followed further did not end here. -/
theorem Visits.not_endsAt {i : ℕ} {txid' : CString} {w' : UInt32}
    (h : Visits markValid srcs genesis vout n txid w rs)
    (h' : Visits markValid srcs genesis vout i txid' w' rs') (hlt : i < n) :
    ¬EndsAt (srcs i) w' txid' := by
  intro hend
  have hreach := visits_iff_reaches.mp h'
  rcases collectHop_of_endsAt rs' hend with hhop | hhop
  · have := hreach.le_of_end hhop (visits_iff_reaches.mp h)
    omega
  · have := hreach.le_of_end hhop (visits_iff_reaches.mp h)
    omega

theorem Visits.exists_of_le {i : ℕ} (h : Visits markValid srcs genesis vout n txid w rs)
    (hle : i ≤ n) : ∃ txid w rs, Visits markValid srcs genesis vout i txid w rs := by
  obtain ⟨cur, hreach⟩ := (visits_iff_reaches.mp h).exists_of_le (Nat.zero_le i) hle
  exact ⟨cur.txid, cur.vout, cur.receipts, visits_iff_reaches.mpr hreach⟩

theorem Visits.unique {txid' : CString} {w' : UInt32}
    (h : Visits markValid srcs genesis vout n txid w rs)
    (h' : Visits markValid srcs genesis vout n txid' w' rs') :
    txid = txid' ∧ w = w' ∧ rs = rs' := by
  have := (visits_iff_reaches.mp h).unique (visits_iff_reaches.mp h')
  simpa using this

/-- The forward walk returns whole histories, and an error where spenders are left to visit, exactly
when a lineage it follows up to its cap ends there. -/
theorem collectReceipts_complete_iff :
    ((∀ rs, collectReceipts markValid srcs genesis vout = .ok rs →
          CompleteHistory markValid srcs genesis vout rs)
        ∧ ∀ txid w rs, Visits markValid srcs genesis vout (maxHops + 1) txid w rs →
          ∃ e, collectReceipts markValid srcs genesis vout = .error e) ↔
      ∀ txid w rs, Visits markValid srcs genesis vout maxHops txid w rs →
        EndsAt (srcs maxHops) w txid := by
  constructor
  · rintro ⟨hcomplete, hcap⟩ txid w rs hvisits
    have hok := collectReceipts_of_cap hvisits
    obtain ⟨i, txid', w', hvisits', hend⟩ := hcomplete rs hok
    rcases Nat.lt_trichotomy i maxHops with hlt | rfl | hgt
    · exact absurd hend (hvisits.not_endsAt hvisits' hlt)
    · obtain ⟨rfl, rfl, -⟩ := hvisits.unique hvisits'
      exact hend
    · obtain ⟨txid'', w'', rs'', hnext⟩ := hvisits'.exists_of_le hgt
      obtain ⟨e, he⟩ := hcap txid'' w'' rs'' hnext
      rw [hok] at he
      cases he
  · intro hends
    refine ⟨fun rs hok => ?_, fun txid w rs hvisits => ?_⟩
    · rcases collectReceipts_eq_ok hok with ⟨i, txid, w, -, hvisits, hend⟩ | ⟨txid, w, hvisits⟩
      · exact ⟨i, txid, w, hvisits, hend⟩
      · exact ⟨maxHops, txid, w, hvisits, hends txid w rs hvisits⟩
    · obtain ⟨txid', w', rs', hcap⟩ := hvisits.exists_of_le (Nat.le_succ maxHops)
      exact absurd (hends txid' w' rs' hcap) (hvisits.not_endsAt hcap (Nat.lt_succ_self maxHops))

theorem straightChain_step {last k : ℕ} {hlast : last < 2 ^ 64} {time : CString → Int}
    (hk : k < last)
    (h : Visits markValid (fun _ => (straightChain last hlast).source time) (numberedTxid 0) 0 k
      (numberedTxid k) 0 rs) :
    Visits markValid (fun _ => (straightChain last hlast).source time) (numberedTxid 0) 0 (k + 1)
      (numberedTxid (k + 1)) 0
      (rs ++ (straightChain last hlast).receiptOf markValid time (numberedTxid (k + 1))) :=
  visits_iff_reaches.mpr ((visits_iff_reaches.mp h).snoc
    (collectHop_live (straightChain_rawTx hk) (straightChain_spender hk) straightTx_live))

/-- No transaction before the last carries a receipt. -/
theorem straightChain_visits {last : ℕ} {hlast : last < 2 ^ 64} {time : CString → Int} :
    ∀ {k : ℕ}, k < last → Visits markValid (fun _ => (straightChain last hlast).source time)
      (numberedTxid 0) 0 k (numberedTxid k) 0 []
  | 0, _ => .start
  | k + 1, hk => by
    have hprev : Visits markValid (fun _ => (straightChain last hlast).source time)
        (numberedTxid 0) 0 k (numberedTxid k) 0 [] := straightChain_visits (Nat.lt_of_succ_lt hk)
    have h := straightChain_step (Nat.lt_of_succ_lt hk) hprev
    rwa [straightChain_receiptOf (by omega), if_neg (by omega), List.append_nil] at h

/-- The cut-off is not noticed: of a lineage of 5000001 transactions the last carries the only
receipt, and the walk returns none. -/
theorem collectReceipts_truncated : ∃ src : ChainSource,
    collectReceipts (fun _ _ _ => true) (fun _ => src) (numberedTxid 0) 0 = .ok []
      ∧ ¬CompleteHistory (fun _ _ _ => true) (fun _ => src) (numberedTxid 0) 0 []
      ∧ ∃ r, CompleteHistory (fun _ _ _ => true) (fun _ => src) (numberedTxid 0) 0 [r] := by
  have hlast : maxHops + 1 < 2 ^ 64 := by decide
  have hnone : Visits (fun _ _ _ => true) (fun _ => (straightChain (maxHops + 1) hlast).source
      fun _ => 0) (numberedTxid 0) 0 maxHops (numberedTxid maxHops) 0 [] :=
    straightChain_visits (Nat.lt_succ_self maxHops)
  have hone := straightChain_step (Nat.lt_succ_self maxHops) hnone
  rw [straightChain_receiptOf (Nat.lt_succ_self maxHops), if_pos rfl, List.nil_append] at hone
  refine ⟨_, collectReceipts_of_cap hnone, ?_, _, maxHops + 1, _, _, hone, ?_⟩
  · rintro ⟨i, txid, w, hvisits, hend⟩
    rcases Nat.lt_trichotomy i (maxHops + 1) with hlt | rfl | hgt
    · exact hone.not_endsAt hvisits hlt hend
    · exact List.cons_ne_nil _ _ (hone.unique hvisits).2.2
    · refine hvisits.not_endsAt hone hgt (.inl ?_)
      simp only [Chain.source, straightChain_unspent]
  · left
    simp only [Chain.source, straightChain_unspent]

end Complete

end BonsaiChain
