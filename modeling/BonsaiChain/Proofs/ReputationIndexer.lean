import BonsaiChain.Proofs.OracleCache
import BonsaiChain.ReputationIndexer

/-!
# The oracle and the indexer on one chain

The indexer follows the lineage of the outpoint it is given, up to its cap. The oracle asks every
spender for the output index it was configured with, so the two look up the same outpoints exactly
when that index is 0 or the first lookup already ends the walk.
-/

namespace BonsaiChain

open Lib Relation ReputationIndexer

section Paths

/-- The lineage of `(genesis, vout)` stands at `p` after `i` spends. -/
def LineageAt (c : Chain) (genesis : CString) (vout : UInt32) (i : ℕ) (p : CString × UInt32) :
    Prop :=
  Reaches (fun _ => c.lineageStep) 0 (genesis, vout) i p

/-- A fresh oracle asks for the spender of `p` at hop `i`. -/
def OracleLooksUp (srcs : ℕ → ChainSource) (opts : RevocationOracleOpts) (genesis : CString)
    (i : ℕ) (p : CString × UInt32) : Prop :=
  i < (RevocationOracle.new opts).maxHops ∧ p.2 = (RevocationOracle.new opts).identityVout
    ∧ Follows srcs (RevocationOracle.new opts).identityVout genesis i p.1

/-- The forward walk of the indexer asks for the spender of `p` at hop `i`. -/
def IndexerLooksUp (markValid : CString → Int → CString → Bool) (srcs : ℕ → ChainSource)
    (genesis : CString) (vout : UInt32) (i : ℕ) (p : CString × UInt32) : Prop :=
  i < maxHops ∧ ∃ cur, Reaches (fun i => collectHop markValid (srcs i)) 0 ⟨genesis, vout, []⟩ i cur
    ∧ (cur.txid, cur.vout) = p

variable {c : Chain} {cont cont' : UInt32 → UInt32} {genesis txid tip : CString} {vout : UInt32}
  {i n : ℕ} {p q : CString × UInt32} {b : Bool}

/-- Where a walk ends does not depend on the output index it would go on with. -/
theorem spendStep_end_congr (cont cont' : UInt32 → UInt32) :
    c.spendStep cont p = .inl b ↔ c.spendStep cont' p = .inl b := by
  obtain ⟨txid, vout⟩ := p
  rw [Chain.spendStep_eq_end, Chain.spendStep_eq_end]

theorem spendStep_reaches_vout (hcont : cont vout = vout)
    (h : Reaches (fun _ => c.spendStep cont) i p n q) (hp : p.2 = vout) : q.2 = vout := by
  induction h with
  | refl => exact hp
  | @head i _ p' q' _ hstep _ ih =>
    obtain ⟨txid, w⟩ := p'
    obtain ⟨s, w'⟩ := q'
    obtain ⟨-, -, rfl⟩ := Chain.spendStep_eq_next.mp hstep
    obtain rfl : w = vout := hp
    exact ih hcont

/-- Two walks that both keep the output index `vout` are one walk. -/
theorem spendStep_reaches_congr (hcont : cont vout = vout) (hcont' : cont' vout = vout)
    (hp : p.2 = vout) (h : Reaches (fun _ => c.spendStep cont) i p n q) :
    Reaches (fun _ => c.spendStep cont') i p n q := by
  induction h with
  | refl => exact .refl _ _
  | @head i _ p' q' _ hstep _ ih =>
    obtain ⟨txid, w⟩ := p'
    obtain ⟨s, w'⟩ := q'
    obtain ⟨h1, h2, rfl⟩ := Chain.spendStep_eq_next.mp hstep
    obtain rfl : w = vout := hp
    refine .head (Chain.spendStep_eq_next.mpr ⟨h1, h2, ?_⟩) (ih hcont)
    rw [hcont, hcont']

end Paths

section Honest

variable {c : Chain} {time : CString → Int} {genesis txid tip s : CString} {vout : UInt32} {i : ℕ}
  {markValid : CString → Int → CString → Bool} {cur cur' : Cursor} {b : Bool}

/-- On the chain's own source every spend of the chain is answered. -/
theorem Chain.source_spends (time : CString → Int) (h : c.spender txid vout = some s) :
    ∃ r, c.rawTx s = some r ∧ Spends (c.source time) vout txid s r.hex := by
  obtain ⟨r, hr⟩ := Option.isSome_iff_exists.mp (c.spenderRaw txid vout s h)
  exact ⟨r, hr, by simp [source, h], by simp [source, hr]⟩

/-- The oracle's walk on the chain's own source is the walk that keeps the output index. -/
theorem follows_source_iff : Follows (fun _ => c.source time) vout genesis i tip ↔
    Reaches (fun _ => c.spendStep id) 0 (genesis, vout) i (tip, vout) := by
  constructor
  · intro h
    induction h with
    | start => exact .refl _ _
    | next _ hs ht ih =>
      obtain ⟨h1, h2⟩ := (c.source_answersFrom time).spends hs
      exact ih.snoc (Chain.spendStep_eq_next.mpr ⟨h1, h2.trans ht, rfl⟩)
  · suffices ∀ k p q, Reaches (fun _ => c.spendStep id) k p i q → p.2 = vout →
        Follows (fun _ => c.source time) vout genesis k p.1 →
        Follows (fun _ => c.source time) vout genesis i q.1 from
      fun h => this 0 _ _ h rfl .start
    intro k p q h
    induction h with
    | refl => exact fun _ hf => hf
    | @head k _ p' q' _ hstep _ ih =>
      obtain ⟨txid, w⟩ := p'
      obtain ⟨s, w'⟩ := q'
      rintro rfl hf
      obtain ⟨h1, h2, rfl⟩ := Chain.spendStep_eq_next.mp hstep
      obtain ⟨r, -, hs⟩ := c.source_spends time h1
      have ht := ((c.source_answersFrom time).spends hs).2
      exact ih rfl (hf.next hs (ht.symm.trans h2))

/-- What one hop of the indexer does on the chain's own source. -/
theorem collectHop_source (markValid : CString → Int → CString → Bool) (c : Chain)
    (time : CString → Int) (cur : Cursor) :
    (c.spender cur.txid cur.vout = none
        ∧ collectHop markValid (c.source time) cur = .inl (.unspent cur.receipts))
      ∨ ∃ s, c.spender cur.txid cur.vout = some s
        ∧ ((c.terminal s = true
            ∧ collectHop markValid (c.source time) cur = .inl (.terminal cur.receipts))
          ∨ (c.terminal s = false
            ∧ ∃ rs, collectHop markValid (c.source time) cur = .inr ⟨s, 0, rs⟩)) := by
  cases hs : c.spender cur.txid cur.vout with
  | none => exact .inl ⟨rfl, by simp [collectHop, Chain.source, hs]⟩
  | some s =>
    refine .inr ⟨s, rfl, ?_⟩
    obtain ⟨r, hr, hspends⟩ := c.source_spends time hs
    have ht := ((c.source_answersFrom time).spends hspends).2
    have hhash : ∃ hash, indexerParseReceiptHash r.hex = .ok hash := by
      simp [indexerParseReceiptHash, r.parses]
    obtain ⟨hash, hhash⟩ := hhash
    have hreceipt : ∃ rs,
      collectReceipt markValid (c.source time) s hash cur.receipts = .ok rs := by
      cases hash <;> simp [collectReceipt, Chain.source]
    obtain ⟨rs, hreceipt⟩ := hreceipt
    cases hterm : c.terminal s with
    | true =>
      rw [hterm] at ht
      exact .inl ⟨rfl, by simp [collectHop, hspends.1, hspends.2, ← ht]⟩
    | false =>
      rw [hterm] at ht
      exact .inr ⟨rfl, rs, by simp [collectHop, hspends.1, hspends.2, ← ht, hhash, hreceipt]⟩

theorem collectHop_next (h : collectHop markValid (c.source time) cur = .inr cur') :
    c.lineageStep (cur.txid, cur.vout) = .inr (cur'.txid, cur'.vout) := by
  rcases collectHop_source markValid c time cur with ⟨-, h'⟩ | ⟨s, hs, ⟨-, h'⟩ | ⟨ht, rs, h'⟩⟩ <;>
    rw [h] at h' <;> simp only [reduceCtorEq, Sum.inr.injEq] at h'
  subst h'
  exact Chain.spendStep_eq_next.mpr ⟨hs, ht, rfl⟩

theorem collectHop_of_next {p : CString × UInt32}
    (h : c.lineageStep (cur.txid, cur.vout) = .inr p) :
    ∃ cur', collectHop markValid (c.source time) cur = .inr cur' ∧ (cur'.txid, cur'.vout) = p := by
  obtain ⟨s, w⟩ := p
  obtain ⟨hs, ht, rfl⟩ := Chain.spendStep_eq_next.mp h
  rcases collectHop_source markValid c time cur with ⟨hs', -⟩ | ⟨s', hs', ⟨ht', -⟩ | ⟨-, rs, h'⟩⟩
  · simp [hs] at hs'
  · obtain rfl : s = s' := by simpa [hs] using hs'
    simp [ht] at ht'
  · obtain rfl : s = s' := by simpa [hs] using hs'
    exact ⟨_, h', rfl⟩

theorem collectHop_eq_terminal :
    (∃ rs, collectHop markValid (c.source time) cur = .inl (.terminal rs)) ↔
      c.lineageStep (cur.txid, cur.vout) = .inl true := by
  unfold Chain.lineageStep
  rw [Chain.spendStep_eq_end]
  rcases collectHop_source markValid c time cur with ⟨hs, h⟩ | ⟨s, hs, ⟨ht, h⟩ | ⟨ht, rs, h⟩⟩ <;>
    simp_all

/-- The indexer follows the lineage up to its cap. -/
theorem indexerLooksUp_iff {p : CString × UInt32} :
    IndexerLooksUp markValid (fun _ => c.source time) genesis vout i p ↔
      i < maxHops ∧ LineageAt c genesis vout i p := by
  unfold IndexerLooksUp LineageAt
  refine and_congr_right fun _ => ?_
  constructor
  · rintro ⟨cur, h, rfl⟩
    exact h.map (fun cur => (cur.txid, cur.vout)) fun _ _ _ h => collectHop_next h
  · intro h
    exact Reaches.lift (fun cur : Cursor => (cur.txid, cur.vout))
      (fun _ _ _ h => collectHop_of_next h) h

/-- The indexer stops at a terminal spend exactly when the lineage has one within its cap. -/
theorem collectWalk_terminal_iff :
    (∃ rs, collectWalk markValid (fun _ => c.source time) genesis vout = .terminal rs) ↔
      ∃ i < maxHops, ∃ p, LineageAt c genesis vout i p ∧ c.lineageStep p = .inl true := by
  have hwalk : ∀ rs, collectWalk markValid (fun _ => c.source time) genesis vout = .terminal rs ↔
      loop (fun _ => collectHop markValid (c.source time)) maxHops 0 ⟨genesis, vout, []⟩
        = .inl (.terminal rs) := by
    intro rs
    unfold collectWalk
    cases loop (fun _ => collectHop markValid (c.source time)) maxHops 0 ⟨genesis, vout, []⟩ <;>
      simp
  simp only [hwalk, loop_eq_inl, Nat.zero_add]
  constructor
  · rintro ⟨rs, i, cur, hi, h, hend⟩
    exact ⟨i, hi, _, (indexerLooksUp_iff.mp ⟨hi, cur, h, rfl⟩).2,
      collectHop_eq_terminal.mp ⟨rs, hend⟩⟩
  · rintro ⟨i, hi, p, h, hend⟩
    obtain ⟨-, cur, hcur, rfl⟩ := indexerLooksUp_iff.mpr ⟨hi, h⟩
    obtain ⟨rs, hrs⟩ := collectHop_eq_terminal.mpr hend
    exact ⟨rs, i, cur, hi, hcur, hrs⟩

end Honest

section SameLineage

/-- On the chain's own source the oracle answers revoked exactly when the indexer stops at a
terminal spend, and both look up the lineage of the outpoint. -/
structure SameLineage (c : Chain) (time : CString → Int)
    (markValid : CString → Int → CString → Bool) (opts : RevocationOracleOpts)
    (genesis : CString) : Prop where
  answers : ((RevocationOracle.new opts).isRevoked (fun _ => c.source time) genesis).1 = .ok true ↔
    ∃ rs, collectWalk markValid (fun _ => c.source time) genesis
      (RevocationOracle.new opts).identityVout = .terminal rs
  oracle : ∀ i p, OracleLooksUp (fun _ => c.source time) opts genesis i p ↔
    LineageAt c genesis (RevocationOracle.new opts).identityVout i p
  indexer : ∀ i p, IndexerLooksUp markValid (fun _ => c.source time) genesis
      (RevocationOracle.new opts).identityVout i p ↔
    LineageAt c genesis (RevocationOracle.new opts).identityVout i p

/-- The walk the oracle makes ends within its hop budget. -/
def BudgetSuffices (c : Chain) (opts : RevocationOracleOpts) (genesis : CString) : Prop :=
  ∃ i < (RevocationOracle.new opts).maxHops, ∃ p b,
    Reaches (fun _ => c.spendStep id) 0 (genesis, (RevocationOracle.new opts).identityVout) i p
      ∧ c.spendStep id p = .inl b

variable {c : Chain} {time : CString → Int} {markValid : CString → Int → CString → Bool}
  {opts : RevocationOracleOpts} {genesis : CString} {i : ℕ} {p : CString × UInt32}

theorem oracleLooksUp_iff : OracleLooksUp (fun _ => c.source time) opts genesis i p ↔
    i < (RevocationOracle.new opts).maxHops ∧ Reaches (fun _ => c.spendStep id) 0
      (genesis, (RevocationOracle.new opts).identityVout) i p := by
  obtain ⟨txid, w⟩ := p
  unfold OracleLooksUp
  refine and_congr_right fun _ => ?_
  constructor
  · rintro ⟨hw, h⟩
    obtain rfl : w = (RevocationOracle.new opts).identityVout := hw
    exact follows_source_iff.mp h
  · intro h
    obtain rfl : w = (RevocationOracle.new opts).identityVout :=
      spendStep_reaches_vout rfl h rfl
    exact ⟨rfl, follows_source_iff.mpr h⟩

theorem isRevoked_source_iff :
    ((RevocationOracle.new opts).isRevoked (fun _ => c.source time) genesis).1 = .ok true ↔
      ∃ i < (RevocationOracle.new opts).maxHops, ∃ p,
        Reaches (fun _ => c.spendStep id) 0 (genesis, (RevocationOracle.new opts).identityVout) i p
          ∧ c.spendStep id p = .inl true := by
  have hcold : (RevocationOracle.new opts).Cold genesis := ⟨rfl, rfl⟩
  have hwalk : ((RevocationOracle.new opts).isRevoked (fun _ => c.source time) genesis).1 = .ok true
      ↔ RevocationOracle.walk (fun _ => c.source time) (RevocationOracle.new opts).identityVout
        (RevocationOracle.new opts).maxHops genesis = .revoked := by
    rw [RevocationOracle.isRevoked_cold hcold]
    cases RevocationOracle.walk (fun _ => c.source time) (RevocationOracle.new opts).identityVout
      (RevocationOracle.new opts).maxHops genesis <;> simp
  rw [hwalk, RevocationOracle.walk_eq_revoked]
  constructor
  · rintro ⟨i, hi, txid, hf, s, raw, hs, ht⟩
    obtain ⟨h1, h2⟩ := (c.source_answersFrom time).spends hs
    exact ⟨i, hi, _, follows_source_iff.mp hf,
      Chain.spendStep_eq_end.mpr (.inr ⟨s, h1, h2.trans ht, rfl⟩)⟩
  · rintro ⟨i, hi, ⟨txid, w⟩, h, hend⟩
    obtain rfl : w = (RevocationOracle.new opts).identityVout :=
      spendStep_reaches_vout rfl h rfl
    rcases Chain.spendStep_eq_end.mp hend with ⟨-, hb⟩ | ⟨s, hs, ht, -⟩
    · cases hb
    · obtain ⟨r, -, hspends⟩ := c.source_spends time hs
      have ht' := ((c.source_answersFrom time).spends hspends).2
      exact ⟨i, hi, txid, follows_source_iff.mpr h, s, r.hex, hspends, ht'.symm.trans ht⟩

/-- With output index 0, and when the first lookup ends the walk, keeping the index is following the
lineage. -/
theorem lineageAt_iff_reaches
    (h : (RevocationOracle.new opts).identityVout = 0
      ∨ ∃ b, c.lineageStep (genesis, (RevocationOracle.new opts).identityVout) = .inl b) :
    LineageAt c genesis (RevocationOracle.new opts).identityVout i p ↔
      Reaches (fun _ => c.spendStep id) 0 (genesis, (RevocationOracle.new opts).identityVout) i
        p := by
  unfold LineageAt
  rcases h with hv | ⟨b, hend⟩
  · rw [hv]
    exact ⟨spendStep_reaches_congr rfl rfl rfl, spendStep_reaches_congr rfl rfl rfl⟩
  · have hend' := (spendStep_end_congr (fun _ => 0) id).mp hend
    constructor <;> intro h <;> rcases h.cases_head with ⟨rfl, rfl⟩ | ⟨q, hstep, -⟩
    · exact .refl _ _
    · simp [hend] at hstep
    · exact .refl _ _
    · simp [hend'] at hstep

/-- With a sufficient hop budget, the oracle and the indexer follow one lineage exactly when the
lineage ends within the indexer's cap and either the output index is 0 or the first lookup ends the
walk. -/
theorem sameLineage_iff (hbudget : BudgetSuffices c opts genesis) :
    SameLineage c time markValid opts genesis ↔
      (∀ p, ¬ LineageAt c genesis (RevocationOracle.new opts).identityVout maxHops p)
        ∧ ((RevocationOracle.new opts).identityVout = 0
          ∨ ∃ b, c.lineageStep (genesis, (RevocationOracle.new opts).identityVout) = .inl b) := by
  constructor
  · intro h
    refine ⟨fun p hp => ?_, ?_⟩
    · exact absurd ((h.indexer _ p).mpr hp).1 (Nat.lt_irrefl _)
    · cases hstep : c.lineageStep (genesis, (RevocationOracle.new opts).identityVout) with
      | inl b => exact .inr ⟨b, rfl⟩
      | inr p =>
        obtain ⟨s, w⟩ := p
        have hat : LineageAt c genesis (RevocationOracle.new opts).identityVout 1 (s, w) :=
          .head hstep (.refl _ _)
        obtain ⟨-, hw, -⟩ := (h.oracle 1 (s, w)).mpr hat
        obtain ⟨-, -, hw'⟩ := Chain.spendStep_eq_next.mp hstep
        exact .inl (hw.symm.trans hw')
  · rintro ⟨hcap, hfirst⟩
    have hpath : ∀ i p, LineageAt c genesis (RevocationOracle.new opts).identityVout i p ↔
        Reaches (fun _ => c.spendStep id) 0
          (genesis, (RevocationOracle.new opts).identityVout) i p :=
      fun i p => lineageAt_iff_reaches hfirst
    have hlt : ∀ i p, LineageAt c genesis (RevocationOracle.new opts).identityVout i p →
        i < (RevocationOracle.new opts).maxHops := by
      intro i p h
      obtain ⟨n, hn, q, b, hq, hend⟩ := hbudget
      have := hq.le_of_end hend ((hpath i p).mp h)
      omega
    have hlt' : ∀ i p, LineageAt c genesis (RevocationOracle.new opts).identityVout i p →
        i < maxHops := by
      intro i p h
      by_contra hge
      obtain ⟨q, hq⟩ := Reaches.exists_of_le h (Nat.zero_le maxHops) (Nat.le_of_not_lt hge)
      exact hcap q hq
    refine ⟨?_, fun i p => ?_, fun i p => ?_⟩
    · rw [isRevoked_source_iff, collectWalk_terminal_iff]
      constructor
      · rintro ⟨i, -, p, h, hend⟩
        have hat := (hpath i p).mpr h
        exact ⟨i, hlt' i p hat, p, hat, (spendStep_end_congr _ _).mp hend⟩
      · rintro ⟨i, -, p, hat, hend⟩
        exact ⟨i, hlt i p hat, p, (hpath i p).mp hat, (spendStep_end_congr _ _).mp hend⟩
    · rw [oracleLooksUp_iff, ← hpath]
      exact ⟨fun h => h.2, fun h => ⟨hlt i p h, h⟩⟩
    · rw [indexerLooksUp_iff]
      exact ⟨fun h => h.2, fun h => ⟨hlt' i p h, h⟩⟩

/-- The indexer and a cold oracle both follow the lineage of `11…` for two hops to the spend that
pays it out. -/
theorem sameLineage_iff_paidOut :
    SameLineage (lineageChain true) (fun _ => 0) (fun _ _ _ => true) {} (txidOf 0x11)
      ∧ LineageAt (lineageChain true) (txidOf 0x11) 0 2 (txidOf 0x33, 0) := by
  have hfirst : (lineageChain true).lineageStep (txidOf 0x11, 0) = .inr (txidOf 0x22, 0) := by
    decide +kernel
  have hsecond : (lineageChain true).lineageStep (txidOf 0x22, 0) = .inr (txidOf 0x33, 0) := by
    decide +kernel
  have hend : (lineageChain true).lineageStep (txidOf 0x33, 0) = .inl true := by decide +kernel
  have hat : LineageAt (lineageChain true) (txidOf 0x11) 0 2 (txidOf 0x33, 0) :=
    .head hfirst (.head hsecond (.refl _ _))
  have hbudget : BudgetSuffices (lineageChain true) {} (txidOf 0x11) :=
    ⟨2, by decide, (txidOf 0x33, 0), true, (lineageAt_iff_reaches (.inl rfl)).mp hat,
      (spendStep_end_congr _ _).mp hend⟩
  refine ⟨(sameLineage_iff hbudget).mpr ⟨fun p hp => ?_, .inl rfl⟩, hat⟩
  exact absurd (hat.le_of_end hend hp) (by decide)

end SameLineage

section Diverge

/-- Output 1 of transaction `11…` is spent by `22…`, which recreates the identity at output 0; that
output is spent by `33…`, which pays it out. -/
def divergingChain : Chain where
  spender txid vout :=
    if txid = txidOf 0x11 ∧ vout = 1 then some (txidOf 0x22)
    else if txid = txidOf 0x22 ∧ vout = 0 then some (txidOf 0x33)
    else none
  rawTx txid :=
    if txid = txidOf 0x22 then
      some (RawTx.ofTx (spendOf (txidOf 0x11) 1 [0x51]) (spendOf_ok (txidOf_isTxid _) (by simp)))
    else if txid = txidOf 0x33 then
      some (RawTx.ofTx (spendOf (txidOf 0x22) 0 (p2pkhScript (List.replicate 20 0)))
        (spendOf_ok (txidOf_isTxid _) (by simp [p2pkhScript])))
    else none
  spenderRaw txid vout s h := by
    split_ifs at h <;> obtain rfl := Option.some.inj h <;> decide

/-- Asked for output 1, the oracle looks for a spender of output 1 of the recreated identity and
calls it live, while the indexer follows output 0 and stops at the terminal spend. -/
theorem sameLineage_vout_one :
    BudgetSuffices divergingChain ⟨some 1, none⟩ (txidOf 0x11)
      ∧ ((RevocationOracle.new ⟨some 1, none⟩).isRevoked
          (fun _ => divergingChain.source fun _ => 0) (txidOf 0x11)).1 = .ok false
      ∧ collectWalk (fun _ _ _ => true) (fun _ => divergingChain.source fun _ => 0) (txidOf 0x11) 1
          = .terminal []
      ∧ ¬ SameLineage divergingChain (fun _ => 0) (fun _ _ _ => true) ⟨some 1, none⟩
          (txidOf 0x11) := by
  have hlive : ((RevocationOracle.new ⟨some 1, none⟩).isRevoked
      (fun _ => divergingChain.source fun _ => 0) (txidOf 0x11)).1 = .ok false := by decide +kernel
  have hterm : collectWalk (fun _ _ _ => true) (fun _ => divergingChain.source fun _ => 0)
      (txidOf 0x11) 1 = .terminal [] := by decide +kernel
  refine ⟨⟨1, by decide, (txidOf 0x22, 1), false, .head (by rfl) (.refl _ _), by rfl⟩, hlive,
    hterm, fun h => ?_⟩
  have hrev := h.answers.mpr ⟨[], hterm⟩
  rw [hlive] at hrev
  cases hrev

end Diverge

end BonsaiChain
