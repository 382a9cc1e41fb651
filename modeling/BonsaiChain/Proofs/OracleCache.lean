import BonsaiChain.Proofs.RevocationOracle
import BonsaiChain.Proofs.Tx

/-!
# The caches of the revocation oracle are invisible

Every cached tip lies on the walk of its identity, and every identity in the revoked set has a
terminal spend on its walk. Both facts survive a query, failed lookups and the growth of the chain,
so a query answers what an unbounded walk from the genesis finds on the current chain.
-/

namespace BonsaiChain

open Lib Relation

section Growth

variable {c c' : Chain} {cont : UInt32 → UInt32} {p q : CString × UInt32}

theorem Chain.Grows.refl (c : Chain) : c.Grows c := ⟨fun _ _ _ h => h, fun _ _ h => h⟩

theorem Chain.Grows.trans {c'' : Chain} (h : c.Grows c') (h' : c'.Grows c'') : c.Grows c'' :=
  ⟨fun t v s hs => h'.spender t v s (h.spender t v s hs),
    fun t r hr => h'.rawTx t r (h.rawTx t r hr)⟩

theorem Chain.Grows.terminal (h : c.Grows c') {txid s : CString} {vout : UInt32}
    (hs : c.spender txid vout = some s) : c'.terminal s = c.terminal s := by
  obtain ⟨r, hr⟩ := Option.isSome_iff_exists.mp (c.spenderRaw txid vout s hs)
  simp [Chain.terminal, hr, h.rawTx s r hr]

theorem Chain.spendStep_eq_next {txid s : CString} {vout w : UInt32} :
    c.spendStep cont (txid, vout) = .inr (s, w) ↔
      c.spender txid vout = some s ∧ c.terminal s = false ∧ w = cont vout := by
  simp only [spendStep]
  cases hs : c.spender txid vout with
  | none => simp
  | some s' =>
    simp only [Option.some.injEq]
    split_ifs with ht
    · simp only [false_iff, not_and]
      rintro rfl hf
      simp [ht] at hf
    · simp only [Sum.inr.injEq, Prod.mk.injEq]
      constructor
      · rintro ⟨rfl, rfl⟩
        exact ⟨rfl, by simpa using ht, rfl⟩
      · rintro ⟨rfl, -, rfl⟩
        exact ⟨rfl, rfl⟩

theorem Chain.spendStep_eq_end {txid : CString} {vout : UInt32} {b : Bool} :
    c.spendStep cont (txid, vout) = .inl b ↔
      (c.spender txid vout = none ∧ b = false)
        ∨ ∃ s, c.spender txid vout = some s ∧ c.terminal s = true ∧ b = true := by
  simp only [spendStep]
  cases hs : c.spender txid vout with
  | none => cases b <;> simp
  | some s =>
    simp only []
    split_ifs with ht <;> cases b <;> simp [ht]

theorem Chain.Grows.next (h : c.Grows c') (hn : Next (c.spendStep cont) p q) :
    Next (c'.spendStep cont) p q := by
  obtain ⟨txid, vout⟩ := p
  obtain ⟨s, w⟩ := q
  obtain ⟨hs, ht, hw⟩ := spendStep_eq_next.mp hn
  exact spendStep_eq_next.mpr ⟨h.spender _ _ _ hs, (h.terminal hs).trans ht, hw⟩

/-- A terminal spend stays where it is when the chain grows. -/
theorem Chain.Grows.halts (h : c.Grows c') (hh : Halts (c.spendStep cont) p true) :
    Halts (c'.spendStep cont) p true := by
  refine Halts.mono (fun _ _ => h.next) (fun q hq => ?_) hh
  obtain ⟨txid, vout⟩ := q
  rcases spendStep_eq_end.mp hq with ⟨-, hb⟩ | ⟨s, hs, ht, -⟩
  · cases hb
  · exact spendStep_eq_end.mpr (.inr ⟨s, h.spender _ _ _ hs, (h.terminal hs).trans ht, rfl⟩)

end Growth

section Answers

variable {src : ChainSource} {srcs : ℕ → ChainSource} {c : Chain} {cont : UInt32 → UInt32}
  {vout : UInt32} {txid start tip s raw : CString} {i n : ℕ}

theorem Chain.source_answersFrom (c : Chain) (time : CString → Int) :
    (c.source time).AnswersFrom c :=
  ⟨fun _ _ _ h => by simpa [source] using h.symm, fun _ _ h => by simpa [source] using h.symm⟩

/-- What an honest source says about a spend is what the chain says. -/
theorem ChainSource.AnswersFrom.spends (h : src.AnswersFrom c) (hs : Spends src vout txid s raw) :
    c.spender txid vout = some s ∧ c.terminal s = isTerminalSpend raw := by
  have h1 := h.spender _ _ _ hs.1
  have h2 := h.rawTx _ _ hs.2
  refine ⟨h1.symm, ?_⟩
  obtain ⟨r, hr, rfl⟩ := Option.map_eq_some_iff.mp h2.symm
  simp [Chain.terminal, hr, RevocationOracle.isTerminalSpend_ok r.parses]

theorem Follows.reaches (hsrc : ∀ i, (srcs i).AnswersFrom c) (hcont : cont vout = vout)
    (h : Follows srcs vout start n tip) :
    ReflTransGen (Next (c.spendStep cont)) (start, vout) (tip, vout) := by
  induction h with
  | start => exact .refl
  | @next i txid s raw _ hs ht ih =>
    obtain ⟨h1, h2⟩ := (hsrc i).spends hs
    exact ih.tail (Chain.spendStep_eq_next.mpr ⟨h1, h2.trans ht, hcont.symm⟩)

namespace RevocationOracle

theorem walk_live_reaches (hsrc : ∀ i, (srcs i).AnswersFrom c) (hcont : cont vout = vout)
    (h : walk srcs vout n start = .live tip) :
    ReflTransGen (Next (c.spendStep cont)) (start, vout) (tip, vout)
      ∧ c.spendStep cont (tip, vout) = .inl false := by
  obtain ⟨i, -, hf, hu⟩ := walk_eq_live.mp h
  have hnone : none = c.spender tip vout := (hsrc i).spender _ _ _ hu
  exact ⟨hf.reaches hsrc hcont, Chain.spendStep_eq_end.mpr (.inl ⟨hnone.symm, rfl⟩)⟩

theorem walk_revoked_halts (hsrc : ∀ i, (srcs i).AnswersFrom c) (hcont : cont vout = vout)
    (h : walk srcs vout n start = .revoked) : Halts (c.spendStep cont) (start, vout) true := by
  obtain ⟨i, -, txid, hf, s, raw, hs, ht⟩ := walk_eq_revoked.mp h
  obtain ⟨h1, h2⟩ := (hsrc i).spends hs
  exact ⟨(txid, vout), hf.reaches hsrc hcont,
    Chain.spendStep_eq_end.mpr (.inr ⟨s, h1, h2.trans ht, rfl⟩)⟩

end RevocationOracle

end Answers

section Cache

namespace RevocationOracle

variable {c c' : Chain} {cont : UInt32 → UInt32} {o : RevocationOracle} {srcs : ℕ → ChainSource}
  {genesis tip : CString}

/-- Every cached tip lies on the walk of its identity, and every identity in the revoked set is
revoked. -/
structure CacheOk (c : Chain) (cont : UInt32 → UInt32) (o : RevocationOracle) : Prop where
  vout : cont o.identityVout = o.identityVout
  tips : ∀ e ∈ o.liveTips, ReflTransGen (Next (c.spendStep cont)) (e.genesis, o.identityVout)
    (e.tip, o.identityVout)
  revoked : ∀ g ∈ o.revoked, Halts (c.spendStep cont) (g, o.identityVout) true

theorem CacheOk.grows (h : CacheOk c cont o) (hg : c.Grows c') : CacheOk c' cont o :=
  ⟨h.vout, fun e he => reaches_mono (fun _ _ => hg.next) (h.tips e he),
    fun g hr => hg.halts (h.revoked g hr)⟩

theorem mem_replaceTip {e : LiveTip} : ∀ {es : List LiveTip}, e ∈ replaceTip genesis tip es →
    e ∈ es ∨ e = ⟨genesis, tip⟩
  | [], h => by simp [replaceTip] at h
  | e' :: es, h => by
    simp only [replaceTip] at h
    split_ifs at h with hg
    · rcases List.mem_cons.mp h with rfl | h
      · have hg' : e'.genesis = genesis := by simpa using hg
        simp [hg']
      · exact .inl (List.mem_cons_of_mem _ h)
    · rcases List.mem_cons.mp h with rfl | h
      · exact .inl (List.mem_cons_self ..)
      · exact (mem_replaceTip h).imp_left (List.mem_cons_of_mem _)

theorem mem_liveTipSet {e : LiveTip} (h : e ∈ (o.liveTipSet genesis tip).liveTips) :
    e ∈ o.liveTips ∨ e = ⟨genesis, tip⟩ := by
  unfold liveTipSet at h
  split at h
  · exact mem_replaceTip h
  · simpa using h

/-- Swapping in the last entry keeps no entry that was not there. -/
theorem mem_liveTipDelete {e : LiveTip} (h : e ∈ (o.liveTipDelete genesis).liveTips) :
    e ∈ o.liveTips := by
  unfold liveTipDelete at h
  split at h
  · rename_i i last _ hlast
    rcases List.mem_or_eq_of_mem_set (List.dropLast_subset _ h) with h | rfl
    · exact h
    · exact List.mem_of_getLast? hlast
  · exact h

@[simp] theorem liveTipSet_vout :
    (o.liveTipSet genesis tip).identityVout = o.identityVout := by
  unfold liveTipSet
  split <;> rfl

@[simp] theorem liveTipSet_revoked : (o.liveTipSet genesis tip).revoked = o.revoked := by
  unfold liveTipSet
  split <;> rfl

@[simp] theorem liveTipDelete_vout : (o.liveTipDelete genesis).identityVout = o.identityVout := by
  unfold liveTipDelete
  split <;> rfl

@[simp] theorem liveTipDelete_revoked : (o.liveTipDelete genesis).revoked = o.revoked := by
  unfold liveTipDelete
  split <;> rfl

@[simp] theorem revokedAdd_vout : (o.revokedAdd genesis).identityVout = o.identityVout := by
  unfold revokedAdd
  split <;> rfl

@[simp] theorem revokedAdd_liveTips : (o.revokedAdd genesis).liveTips = o.liveTips := by
  unfold revokedAdd
  split <;> rfl

theorem mem_revokedAdd {g : CString} (h : g ∈ (o.revokedAdd genesis).revoked) :
    g ∈ o.revoked ∨ g = genesis := by
  unfold revokedAdd at h
  split at h
  · exact .inl h
  · simpa using h

theorem CacheOk.liveTipSet (h : CacheOk c cont o)
    (ht : ReflTransGen (Next (c.spendStep cont)) (genesis, o.identityVout) (tip, o.identityVout)) :
    CacheOk c cont (o.liveTipSet genesis tip) := by
  refine ⟨by simpa using h.vout, fun e he => ?_, by simpa using h.revoked⟩
  rw [liveTipSet_vout]
  rcases mem_liveTipSet he with he | rfl
  · exact h.tips e he
  · exact ht

theorem CacheOk.revoke (h : CacheOk c cont o)
    (hr : Halts (c.spendStep cont) (genesis, o.identityVout) true) :
    CacheOk c cont ((o.revokedAdd genesis).liveTipDelete genesis) := by
  refine ⟨by simpa using h.vout, fun e he => ?_, fun g hg => ?_⟩
  · rw [liveTipDelete_vout, revokedAdd_vout]
    exact h.tips e (by simpa using mem_liveTipDelete he)
  · rw [liveTipDelete_vout, revokedAdd_vout]
    rw [liveTipDelete_revoked] at hg
    rcases mem_revokedAdd hg with hg | rfl
    · exact h.revoked g hg
    · exact hr

/-- The walk starts at the genesis or at a tip that lies on the walk from it. -/
theorem CacheOk.resume (h : CacheOk c cont o) (genesis : CString) :
    ReflTransGen (Next (c.spendStep cont)) (genesis, o.identityVout)
      (((o.liveTipFind genesis).map LiveTip.tip).getD genesis, o.identityVout) := by
  cases hf : o.liveTipFind genesis with
  | none => exact .refl
  | some e =>
    have hg : e.genesis = genesis := by simpa using List.find?_some hf
    have ht := h.tips e (List.mem_of_find?_eq_some hf)
    rw [hg] at ht
    simpa using ht

/-- The three ways a query can go. -/
theorem isRevoked_cases (srcs : ℕ → ChainSource) (o : RevocationOracle) (genesis : CString) :
    (genesis ∈ o.revoked ∧ o.isRevoked srcs genesis = (.ok true, o))
      ∨ (∃ e, o.isRevoked srcs genesis = (.error e, o))
      ∨ (∃ tip, walk srcs o.identityVout o.maxHops
            (((o.liveTipFind genesis).map LiveTip.tip).getD genesis) = .live tip
          ∧ o.isRevoked srcs genesis = (.ok false, o.liveTipSet genesis tip))
      ∨ (walk srcs o.identityVout o.maxHops
            (((o.liveTipFind genesis).map LiveTip.tip).getD genesis) = .revoked
          ∧ o.isRevoked srcs genesis
            = (.ok true, (o.revokedAdd genesis).liveTipDelete genesis)) := by
  unfold isRevoked
  cases hh : o.revokedHas genesis with
  | true => exact .inl ⟨by simpa [revokedHas] using hh, rfl⟩
  | false =>
    simp only [Bool.false_eq_true, if_false]
    cases walk srcs o.identityVout o.maxHops
        (((o.liveTipFind genesis).map LiveTip.tip).getD genesis) with
    | failed e => exact .inr (.inl ⟨e, rfl⟩)
    | live tip => exact .inr (.inr (.inl ⟨tip, rfl, rfl⟩))
    | revoked => exact .inr (.inr (.inr ⟨rfl, rfl⟩))

/-- A query keeps the cache invariant and answers what the walk from the genesis finds. -/
theorem CacheOk.isRevoked (h : CacheOk c cont o) (hsrc : ∀ i, (srcs i).AnswersFrom c)
    (genesis : CString) :
    CacheOk c cont (o.isRevoked srcs genesis).2
      ∧ ∀ b, (o.isRevoked srcs genesis).1 = .ok b →
          Halts (c.spendStep cont) (genesis, o.identityVout) b := by
  have hres := h.resume genesis
  rcases isRevoked_cases srcs o genesis with
    ⟨hmem, heq⟩ | ⟨e, heq⟩ | ⟨tip, hw, heq⟩ | ⟨hw, heq⟩ <;> rw [heq]
  · refine ⟨h, fun b hb => ?_⟩
    obtain rfl : true = b := by simpa using hb
    exact h.revoked genesis hmem
  · exact ⟨h, fun b hb => by simp at hb⟩
  · obtain ⟨hreach, hend⟩ := walk_live_reaches hsrc h.vout hw
    refine ⟨h.liveTipSet (hres.trans hreach), fun b hb => ?_⟩
    obtain rfl : false = b := by simpa using hb
    exact ⟨_, hres.trans hreach, hend⟩
  · have hhalts := (halts_iff_of_reaches hres).mpr (walk_revoked_halts hsrc h.vout hw)
    refine ⟨h.revoke hhalts, fun b hb => ?_⟩
    obtain rfl : true = b := by simpa using hb
    exact hhalts

@[simp] theorem isRevoked_vout (srcs : ℕ → ChainSource) (o : RevocationOracle)
    (genesis : CString) : (o.isRevoked srcs genesis).2.identityVout = o.identityVout := by
  rcases isRevoked_cases srcs o genesis with
    ⟨-, heq⟩ | ⟨e, heq⟩ | ⟨tip, -, heq⟩ | ⟨-, heq⟩ <;> rw [heq] <;> simp

theorem cacheOk_new (c : Chain) (opts : RevocationOracleOpts)
    (hcont : cont (new opts).identityVout = (new opts).identityVout) : CacheOk c cont (new opts) :=
  ⟨hcont, by simp [new], by simp [new]⟩

end RevocationOracle

end Cache

section Run

open RevocationOracle

/-- A chain together with the oracle that reads it. -/
structure OracleState where
  chain : Chain
  oracle : RevocationOracle

/-- The chain grows, or the oracle answers a query from a source that reads the chain and may fail
at any lookup. -/
inductive OracleStep : OracleState → OracleState → Prop
  | grow {c c' : Chain} {o : RevocationOracle} (h : c.Grows c') : OracleStep ⟨c, o⟩ ⟨c', o⟩
  | query {c : Chain} {o : RevocationOracle} (srcs : ℕ → ChainSource) (genesis : CString)
      (h : ∀ i, (srcs i).AnswersFrom c) : OracleStep ⟨c, o⟩ ⟨c, (o.isRevoked srcs genesis).2⟩

/-- The runs of an oracle built with `opts`, over any chain. -/
def OracleReachable (opts : RevocationOracleOpts) (s : OracleState) : Prop :=
  ∃ c, ReflTransGen OracleStep ⟨c, RevocationOracle.new opts⟩ s

variable {opts : RevocationOracleOpts} {s s' : OracleState}

theorem OracleStep.grows (h : OracleStep s s') : s.chain.Grows s'.chain := by
  cases h with
  | grow h => exact h
  | query srcs genesis _ => exact Chain.Grows.refl _

theorem OracleStep.cacheOk {cont : UInt32 → UInt32} (h : OracleStep s s')
    (hs : CacheOk s.chain cont s.oracle) : CacheOk s'.chain cont s'.oracle := by
  cases h with
  | grow h => exact hs.grows h
  | query srcs genesis h => exact (hs.isRevoked h genesis).1

theorem OracleStep.vout (h : OracleStep s s') :
    s'.oracle.identityVout = s.oracle.identityVout := by
  cases h with
  | grow => rfl
  | query srcs genesis _ => exact isRevoked_vout srcs _ genesis

theorem oracleRun_grows (h : ReflTransGen OracleStep s s') : s.chain.Grows s'.chain := by
  induction h with
  | refl => exact Chain.Grows.refl _
  | tail _ hstep ih => exact ih.trans hstep.grows

/-- With output index 0 the oracle's own walk is the lineage, in every reachable state. -/
theorem oracleRun_cacheOk (hv : (RevocationOracle.new opts).identityVout = 0)
    (h : OracleReachable opts s) :
    s.oracle.identityVout = 0 ∧ CacheOk s.chain (fun _ => 0) s.oracle := by
  obtain ⟨c, h⟩ := h
  induction h with
  | refl => exact ⟨hv, cacheOk_new c opts hv.symm⟩
  | tail _ hstep ih => exact ⟨hstep.vout.trans ih.1, hstep.cacheOk ih.2⟩

/-- With output index 0, a query in any reachable state answers what the walk of the whole lineage
finds on the current chain, a revoked answer is final, and a failed query changes nothing. -/
theorem isRevoked_transparent (hv : (RevocationOracle.new opts).identityVout = 0)
    (h : OracleReachable opts s) (srcs : ℕ → ChainSource) (genesis : CString)
    (hsrc : ∀ i, (srcs i).AnswersFrom s.chain) :
    (∀ b, (s.oracle.isRevoked srcs genesis).1 = .ok b →
      Halts s.chain.lineageStep (genesis, 0) b)
      ∧ (∀ e, (s.oracle.isRevoked srcs genesis).1 = .error e →
          (s.oracle.isRevoked srcs genesis).2 = s.oracle)
      ∧ ((s.oracle.isRevoked srcs genesis).1 = .ok true →
          ∀ s', ReflTransGen OracleStep ⟨s.chain, (s.oracle.isRevoked srcs genesis).2⟩ s' →
            ∀ srcs' : ℕ → ChainSource, (∀ i, (srcs' i).AnswersFrom s'.chain) →
              (s'.oracle.isRevoked srcs' genesis).1 ≠ .ok false) := by
  obtain ⟨hv0, hok⟩ := oracleRun_cacheOk hv h
  refine ⟨fun b hb => ?_, fun e he => ?_, fun htrue s' hrun srcs' hsrc' hfalse => ?_⟩
  · have := (hok.isRevoked hsrc genesis).2 b hb
    rwa [hv0] at this
  · rcases isRevoked_cases srcs s.oracle genesis with
      ⟨-, heq⟩ | ⟨e', heq⟩ | ⟨tip, -, heq⟩ | ⟨-, heq⟩ <;> rw [heq] at he ⊢ <;> simp at he
  · have hnow := (hok.isRevoked hsrc genesis).2 true htrue
    have hlater := (oracleRun_grows hrun).halts hnow
    have hreach : OracleReachable opts s' := by
      obtain ⟨c, h⟩ := h
      exact ⟨c, (h.tail (.query srcs genesis hsrc)).trans hrun⟩
    obtain ⟨hv0', hok'⟩ := oracleRun_cacheOk hv hreach
    have hwrong := (hok'.isRevoked hsrc' genesis).2 false hfalse
    rw [hv0'] at hwrong
    rw [hv0] at hlater
    exact Bool.noConfusion (hlater.unique hwrong)

end Run

section Example

open RevocationOracle

/-- A transaction that spends output `vout` of `prev` into one output. -/
def spendOf (prev : CString) (vout : UInt32) (script : Bytes) : Tx :=
  ⟨1, [⟨prev, vout, [], 0xffffffff⟩], [⟨1, script⟩], 0⟩

theorem spendOf_ok {prev : CString} {vout : UInt32} {script : Bytes} (hprev : IsTxid prev)
    (hscript : script.length < 2 ^ 64) : (spendOf prev vout script).Ok :=
  ⟨by simpa [spendOf, TxIn.Ok] using hprev, by simpa [spendOf, TxOut.Ok] using hscript,
    by simp [spendOf], by simp [spendOf]⟩

/-- The wire form of a well-formed transaction, as hex. -/
def RawTx.ofTx (tx : Tx) (h : tx.Ok) : RawTx :=
  ⟨hexEncode (txBytes tx), tx, txDeserialize_eq_ok.mpr ⟨h, hexDecode_hexEncode _⟩⟩

/-- The display txid of 32 bytes `b`. -/
def txidOf (b : UInt8) : CString := hexEncode (List.replicate 32 b)

theorem txidOf_isTxid (b : UInt8) : IsTxid (txidOf b) := ⟨_, List.length_replicate .., rfl⟩

/-- The script of a standard payment. -/
def p2pkhScript (hash : Bytes) : Bytes := [0x76, 0xa9, 0x14] ++ hash ++ [0x88, 0xac]

/-- Output 0 of `11…` is spent by `22…` and output 0 of `22…` by `33…`, which both recreate the
identity. Once it is paid out, output 0 of `33…` is spent by `44…`. -/
def lineageChain (paidOut : Bool) : Chain where
  spender txid vout :=
    if vout ≠ 0 then none
    else if txid = txidOf 0x11 then some (txidOf 0x22)
    else if txid = txidOf 0x22 then some (txidOf 0x33)
    else if txid = txidOf 0x33 ∧ paidOut then some (txidOf 0x44)
    else none
  rawTx txid :=
    if txid = txidOf 0x22 then
      some (RawTx.ofTx (spendOf (txidOf 0x11) 0 [0x51]) (spendOf_ok (txidOf_isTxid _) (by simp)))
    else if txid = txidOf 0x33 then
      some (RawTx.ofTx (spendOf (txidOf 0x22) 0 [0x52]) (spendOf_ok (txidOf_isTxid _) (by simp)))
    else if txid = txidOf 0x44 ∧ paidOut then
      some (RawTx.ofTx (spendOf (txidOf 0x33) 0 (p2pkhScript (List.replicate 20 0)))
        (spendOf_ok (txidOf_isTxid _) (by simp [p2pkhScript])))
    else none
  spenderRaw txid vout s h := by
    split_ifs at h with hv h1 h2 h3 <;> obtain rfl := Option.some.inj h
    · rfl
    · rfl
    · obtain ⟨-, rfl⟩ := h3
      rfl

theorem lineageChain_grows : (lineageChain false).Grows (lineageChain true) := by
  constructor <;> simp only [lineageChain, Bool.false_eq_true, and_false, if_false]
  · intro txid vout s h
    split_ifs at h ⊢ <;> simp_all
  · intro txid r h
    split_ifs at h ⊢ <;> simp_all

/-- A source of `c` whose raw transactions cannot be fetched. -/
def Chain.rawlessSource (c : Chain) : ChainSource :=
  { c.source fun _ => 0 with getRawTx := fun _ => .error .enet }

theorem Chain.rawlessSource_answersFrom (c : Chain) : c.rawlessSource.AnswersFrom c :=
  ⟨(c.source_answersFrom fun _ => 0).spender, fun _ _ h => by cases h⟩

/-- The oracle after it found `33…` live. -/
def tipOracle : RevocationOracle := ⟨0, defaultMaxHops, [], [⟨txidOf 0x11, txidOf 0x33⟩]⟩

theorem tipOracle_reachable : OracleReachable {} ⟨lineageChain true, tipOracle⟩ := by
  have hquery : (new {}).isRevoked (fun _ => (lineageChain false).source fun _ => 0) (txidOf 0x11)
      = (.ok false, tipOracle) := by decide +kernel
  refine ⟨lineageChain false, .tail (.single ?_) (.grow lineageChain_grows)⟩
  have h := OracleStep.query (o := new {}) (fun _ => (lineageChain false).source fun _ => 0)
    (txidOf 0x11) fun _ => (lineageChain false).source_answersFrom _
  rwa [hquery] at h

/-- The identity is paid out after its tip was cached. The query that cannot fetch the spend fails
and keeps the tip, the next one answers revoked, and no later one answers live. -/
theorem isRevoked_transparent_paidOut :
    tipOracle.isRevoked (fun _ => (lineageChain true).rawlessSource) (txidOf 0x11)
        = (.error .enet, tipOracle)
      ∧ (tipOracle.isRevoked (fun _ => (lineageChain true).source fun _ => 0) (txidOf 0x11)).1
        = .ok true
      ∧ Halts (lineageChain true).lineageStep (txidOf 0x11, 0) true
      ∧ ∀ s', ReflTransGen OracleStep ⟨lineageChain true, (tipOracle.isRevoked
            (fun _ => (lineageChain true).source fun _ => 0) (txidOf 0x11)).2⟩ s' →
          ∀ srcs' : ℕ → ChainSource, (∀ i, (srcs' i).AnswersFrom s'.chain) →
            (s'.oracle.isRevoked srcs' (txidOf 0x11)).1 ≠ .ok false := by
  have hfails := isRevoked_transparent rfl tipOracle_reachable
    (fun _ => (lineageChain true).rawlessSource) (txidOf 0x11)
    fun _ => (lineageChain true).rawlessSource_answersFrom
  have hanswers := isRevoked_transparent rfl tipOracle_reachable
    (fun _ => (lineageChain true).source fun _ => 0) (txidOf 0x11)
    fun _ => (lineageChain true).source_answersFrom _
  have herror : (tipOracle.isRevoked (fun _ => (lineageChain true).rawlessSource)
      (txidOf 0x11)).1 = .error .enet := by decide +kernel
  have htrue : (tipOracle.isRevoked (fun _ => (lineageChain true).source fun _ => 0)
      (txidOf 0x11)).1 = .ok true := by decide +kernel
  exact ⟨Prod.ext herror (hfails.2.1 _ herror), htrue, hanswers.1 true htrue, hanswers.2.2 htrue⟩

end Example

end BonsaiChain
