import BonsaiChain.RevocationOracle

/-!
# What the revocation oracle answers

A spender whose bytes do not parse is walked past like a live one, so the oracle fails closed
exactly when no walk meets such a spender and still reaches an end. On a consistent chain the caches
are invisible: every cached tip lies on the walk of its identity and every cached revocation is
final, so an answer is that of a walk from the genesis.
-/

namespace BonsaiChain

open Lib Relation

section Walk

/-- The source answers that `s` spends the outpoint and that its raw bytes are `raw`. -/
def Spends (src : ChainSource) (vout : UInt32) (txid s raw : CString) : Prop :=
  src.getSpendingTxid txid vout = .ok (some s) ∧ src.getRawTx s = .ok (some raw)

/-- Where a walk that goes on past every spender it does not judge terminal stands at hop `i`. -/
inductive Follows (src : ℕ → ChainSource) (vout : UInt32) (start : CString) : ℕ → CString → Prop
  | start : Follows src vout start 0 start
  | next {i : ℕ} {txid s raw : CString} (h : Follows src vout start i txid)
      (hs : Spends (src i) vout txid s raw) (ht : isTerminalSpend raw = false) :
      Follows src vout start (i + 1) s

/-- The walk can end here: the output is unspent or its spender is judged terminal. -/
def EndsAt (src : ChainSource) (vout : UInt32) (txid : CString) : Prop :=
  src.getSpendingTxid txid vout = .ok none
    ∨ ∃ s raw, Spends src vout txid s raw ∧ isTerminalSpend raw = true

/-- The hop at `txid` fetches a spender whose raw bytes do not deserialize. -/
def MeetsMalformed (src : ChainSource) (vout : UInt32) (txid : CString) : Prop :=
  ∃ s raw e, Spends src vout txid s raw ∧ txDeserialize raw = .error e

namespace RevocationOracle

variable {src : ChainSource} {srcs : ℕ → ChainSource} {vout : UInt32} {txid start tip s : CString}
  {i n : ℕ}

theorem spends_unique {s s' raw raw' : CString} (h : Spends src vout txid s raw)
    (h' : Spends src vout txid s' raw') : s = s' ∧ raw = raw' := by
  obtain ⟨h1, h2⟩ := h
  obtain ⟨h3, h4⟩ := h'
  obtain rfl : s = s' := by simpa [h1] using h3
  exact ⟨rfl, by simpa [h2] using h4⟩

/-- What one hop does, for each kind of answer. -/
theorem hop_cases (src : ChainSource) (vout : UInt32) (txid : CString) :
    (src.getSpendingTxid txid vout = .ok none ∧ hop src vout txid = .inl (.live txid))
      ∨ (∃ s raw, Spends src vout txid s raw
          ∧ hop src vout txid = if isTerminalSpend raw then .inl .revoked else .inr s)
      ∨ (src.getSpendingTxid txid vout ≠ .ok none ∧ (∀ s raw, ¬ Spends src vout txid s raw)
          ∧ ∃ e, hop src vout txid = .inl (.failed e)) := by
  unfold hop Spends
  cases hs : src.getSpendingTxid txid vout with
  | error e => simp
  | ok a =>
    cases a with
    | none => simp
    | some s =>
      cases hr : src.getRawTx s with
      | error e =>
        refine .inr (.inr ⟨by simp, ?_, e, by simp [hr]⟩)
        rintro s' raw ⟨h, h'⟩
        obtain rfl : s = s' := by simpa using h
        simp [hr] at h'
      | ok a =>
        cases a with
        | none =>
          refine .inr (.inr ⟨by simp, ?_, .enet, by simp [hr]⟩)
          rintro s' raw ⟨h, h'⟩
          obtain rfl : s = s' := by simpa using h
          simp [hr] at h'
        | some raw => exact .inr (.inl ⟨s, raw, ⟨rfl, hr⟩, by simp [hr]⟩)

theorem hop_eq_next : hop src vout txid = .inr s ↔
    ∃ raw, Spends src vout txid s raw ∧ isTerminalSpend raw = false := by
  rcases hop_cases src vout txid with
    ⟨hu, h⟩ | ⟨s', raw, hs, h⟩ | ⟨-, hs, e, h⟩
  · simp [h, Spends, hu]
  · rw [h]
    constructor
    · intro h'
      split_ifs at h' with ht
      obtain rfl : s' = s := by simpa using h'
      exact ⟨raw, hs, by simpa using ht⟩
    · rintro ⟨raw', hs', ht⟩
      obtain ⟨rfl, rfl⟩ := spends_unique hs hs'
      simp [ht]
  · simp [h, hs]

theorem hop_eq_live : hop src vout txid = .inl (.live tip) ↔
    tip = txid ∧ src.getSpendingTxid txid vout = .ok none := by
  rcases hop_cases src vout txid with
    ⟨hu, h⟩ | ⟨s', raw, hs, h⟩ | ⟨hu, -, e, h⟩
  · simp [h, hu, eq_comm]
  · rw [h]
    split_ifs <;> simp [hs.1]
  · simp [h, hu]

theorem hop_eq_revoked : hop src vout txid = .inl .revoked ↔
    ∃ s raw, Spends src vout txid s raw ∧ isTerminalSpend raw = true := by
  rcases hop_cases src vout txid with
    ⟨hu, h⟩ | ⟨s', raw, hs, h⟩ | ⟨-, hs, e, h⟩
  · simp [h, Spends, hu]
  · rw [h]
    constructor
    · intro h'
      split_ifs at h' with ht
      exact ⟨s', raw, hs, ht⟩
    · rintro ⟨s, raw', hs', ht⟩
      obtain ⟨rfl, rfl⟩ := spends_unique hs hs'
      simp [ht]
  · simp [h, hs]

theorem follows_iff_reaches :
    Follows srcs vout start n tip ↔ Reaches (fun i => hop (srcs i) vout) 0 start n tip := by
  constructor
  · intro h
    induction h with
    | start => exact .refl _ _
    | next _ hs ht ih => exact ih.snoc (hop_eq_next.mpr ⟨_, hs, ht⟩)
  · suffices ∀ i a, Reaches (fun i => hop (srcs i) vout) i a n tip → Follows srcs vout start i a →
        Follows srcs vout start n tip from fun h => this 0 start h .start
    intro i a h
    induction h with
    | refl => exact id
    | head hstep _ ih =>
      obtain ⟨raw, hs, ht⟩ := hop_eq_next.mp hstep
      exact fun hf => ih (hf.next hs ht)

/-- A walk that got past hop `i` fetched a spender there and did not judge it terminal. -/
theorem follows_spends (h : Follows srcs vout start n tip) (hi : Follows srcs vout start i txid)
    (hlt : i < n) : ∃ s raw, Spends (srcs i) vout txid s raw ∧ isTerminalSpend raw = false := by
  rw [follows_iff_reaches] at h hi
  rcases (hi.of_le h (by omega)).cases_head with ⟨rfl, -⟩ | ⟨s, hstep, -⟩
  · omega
  · obtain ⟨raw, hs, ht⟩ := hop_eq_next.mp hstep
    exact ⟨s, raw, hs, ht⟩

theorem walk_eq_iff {e : WalkEnd} (he : ∀ err, e ≠ .failed err) : walk srcs vout n start = e ↔
    ∃ i < n, ∃ txid, Follows srcs vout start i txid ∧ hop (srcs i) vout txid = .inl e := by
  have hloop : walk srcs vout n start = e ↔
      loop (fun i => hop (srcs i) vout) n 0 start = .inl e := by
    unfold walk
    cases loop (fun i => hop (srcs i) vout) n 0 start with
    | inl e' => simp
    | inr a => simp [(he .ehoplimit).symm]
  simp only [hloop, loop_eq_inl, Nat.zero_add, ← follows_iff_reaches]
  constructor
  · rintro ⟨i, txid, hi, h⟩
    exact ⟨i, hi, txid, h⟩
  · rintro ⟨i, hi, txid, h⟩
    exact ⟨i, txid, hi, h⟩

theorem walk_eq_live : walk srcs vout n start = .live tip ↔
    ∃ i < n, Follows srcs vout start i tip ∧ (srcs i).getSpendingTxid tip vout = .ok none := by
  rw [walk_eq_iff (by simp)]
  simp only [hop_eq_live]
  constructor
  · rintro ⟨i, hi, txid, h, rfl, hu⟩
    exact ⟨i, hi, h, hu⟩
  · rintro ⟨i, hi, h, hu⟩
    exact ⟨i, hi, tip, h, rfl, hu⟩

theorem walk_eq_revoked : walk srcs vout n start = .revoked ↔
    ∃ i < n, ∃ txid, Follows srcs vout start i txid
      ∧ ∃ s raw, Spends (srcs i) vout txid s raw ∧ isTerminalSpend raw = true := by
  rw [walk_eq_iff (by simp)]
  simp only [hop_eq_revoked]

/-- The walk reports an error exactly when it meets no end within its budget. -/
theorem walk_failed_iff : (∃ e, walk srcs vout n start = .failed e) ↔
    ¬ ∃ i < n, ∃ txid, Follows srcs vout start i txid ∧ EndsAt (srcs i) vout txid := by
  cases hw : walk srcs vout n start with
  | live tip =>
    obtain ⟨i, hi, h, hu⟩ := walk_eq_live.mp hw
    simp only [reduceCtorEq, exists_false, false_iff, not_not]
    exact ⟨i, hi, tip, h, .inl hu⟩
  | revoked =>
    obtain ⟨i, hi, txid, h, hs⟩ := walk_eq_revoked.mp hw
    simp only [reduceCtorEq, exists_false, false_iff, not_not]
    exact ⟨i, hi, txid, h, .inr hs⟩
  | failed e =>
    simp only [WalkEnd.failed.injEq, exists_eq', true_iff]
    rintro ⟨i, hi, txid, h, hu | hs⟩
    · have := walk_eq_live.mpr ⟨i, hi, h, hu⟩
      simp [hw] at this
    · have := walk_eq_revoked.mpr ⟨i, hi, txid, h, hs⟩
      simp [hw] at this

end RevocationOracle

end Walk

section FailClosed

/-- The identity is in neither cache. -/
def RevocationOracle.Cold (o : RevocationOracle) (genesis : CString) : Prop :=
  o.revokedHas genesis = false ∧ o.liveTipFind genesis = none

/-- The fail-closed contract of a query: a live answer rests on an unspent output reached past
spenders that all parse and are not terminal, and a spender that does not parse forces an error. -/
structure FailClosed (srcs : ℕ → ChainSource) (o : RevocationOracle) (genesis : CString) :
    Prop where
  live : (o.isRevoked srcs genesis).1 = .ok false →
    ∃ n < o.maxHops, ∃ tip, Follows srcs o.identityVout genesis n tip
      ∧ (srcs n).getSpendingTxid tip o.identityVout = .ok none
      ∧ ∀ i < n, ∀ txid, Follows srcs o.identityVout genesis i txid →
          ∃ s raw tx, Spends (srcs i) o.identityVout txid s raw ∧ txDeserialize raw = .ok tx
            ∧ tx.terminal = false
  malformed : ∀ i < o.maxHops, ∀ txid, Follows srcs o.identityVout genesis i txid →
    MeetsMalformed (srcs i) o.identityVout txid → ∃ e, (o.isRevoked srcs genesis).1 = .error e

/-- A walk that meets a malformed spender runs into a failed lookup or out of hops later on. -/
def MalformedNeverEnds (srcs : ℕ → ChainSource) (vout : UInt32) (maxHops : ℕ) (genesis : CString) :
    Prop :=
  ∀ i < maxHops, ∀ txid, Follows srcs vout genesis i txid → MeetsMalformed (srcs i) vout txid →
    ¬ ∃ n < maxHops, ∃ tip, Follows srcs vout genesis n tip ∧ EndsAt (srcs n) vout tip

namespace RevocationOracle

variable {srcs : ℕ → ChainSource} {o : RevocationOracle} {genesis : CString}

/-- On a cold cache the query answers what the walk from the genesis found. -/
theorem isRevoked_cold (hcold : o.Cold genesis) : (o.isRevoked srcs genesis).1 =
    match walk srcs o.identityVout o.maxHops genesis with
    | .failed e => .error e
    | .live _ => .ok false
    | .revoked => .ok true := by
  obtain ⟨hr, ht⟩ := hcold
  simp only [isRevoked, hr, ht, Bool.false_eq_true, if_false, Option.map_none, Option.getD_none]
  cases walk srcs o.identityVout o.maxHops genesis <;> rfl

theorem isRevoked_live_iff (hcold : o.Cold genesis) : (o.isRevoked srcs genesis).1 = .ok false ↔
    ∃ tip, walk srcs o.identityVout o.maxHops genesis = .live tip := by
  rw [isRevoked_cold hcold]
  cases walk srcs o.identityVout o.maxHops genesis <;> simp

theorem isRevoked_error_iff (hcold : o.Cold genesis) :
    (∃ e, (o.isRevoked srcs genesis).1 = .error e) ↔
      ∃ e, walk srcs o.identityVout o.maxHops genesis = .failed e := by
  rw [isRevoked_cold hcold]
  cases walk srcs o.identityVout o.maxHops genesis <;> simp

theorem isTerminalSpend_ok {raw : CString} {tx : Tx} (h : txDeserialize raw = .ok tx) :
    isTerminalSpend raw = tx.terminal := by
  simp [isTerminalSpend, h]

/-- A query on a cold cache fails closed exactly when no walk that meets a malformed spender
reaches an end. -/
theorem isRevoked_failClosed_iff (hcold : o.Cold genesis) : FailClosed srcs o genesis ↔
    MalformedNeverEnds srcs o.identityVout o.maxHops genesis := by
  constructor
  · intro h i hi txid hf hbad
    have herr := h.malformed i hi txid hf hbad
    rwa [isRevoked_error_iff hcold, walk_failed_iff] at herr
  · intro h
    refine ⟨fun hlive => ?_, fun i hi txid hf hbad => ?_⟩
    · obtain ⟨tip, hw⟩ := (isRevoked_live_iff hcold).mp hlive
      obtain ⟨n, hn, hf, hu⟩ := walk_eq_live.mp hw
      refine ⟨n, hn, tip, hf, hu, fun i hi txid hfi => ?_⟩
      obtain ⟨s, raw, hs, ht⟩ := follows_spends hf hfi hi
      cases hp : txDeserialize raw with
      | ok tx => exact ⟨s, raw, tx, hs, hp, (isTerminalSpend_ok hp).symm.trans ht⟩
      | error e =>
        exact absurd ⟨n, hn, tip, hf, .inl hu⟩ (h i (by omega) txid hfi ⟨s, raw, e, hs, hp⟩)
    · rw [isRevoked_error_iff hcold, walk_failed_iff]
      exact h i hi txid hf hbad

/-- A source whose one spend of `genesis` has raw bytes that are not even hex. -/
def malformedSource : ChainSource where
  getRawTx _ := .ok (some (ascii "zz"))
  getTime _ := .ok 0
  getSpendingTxid txid _ := .ok (if txid = ascii "genesis" then some (ascii "spender") else none)

/-- The malformed spender is walked past and its unspent output makes the identity live. -/
theorem isRevoked_malformed_live :
    (isRevoked (fun _ => malformedSource) (new {}) (ascii "genesis")).1 = .ok false
      ∧ ¬ FailClosed (fun _ => malformedSource) (new {}) (ascii "genesis") := by
  have hlive : (isRevoked (fun _ => malformedSource) (new {}) (ascii "genesis")).1 = .ok false := by
    decide
  refine ⟨hlive, fun h => ?_⟩
  obtain ⟨e, he⟩ := h.malformed 0 (by decide) _ .start ⟨ascii "spender", ascii "zz", .eparse,
    ⟨rfl, rfl⟩, rfl⟩
  rw [hlive] at he
  cases he

/-- The source of `malformedSource`, except that nobody can say who spends the spender. -/
def lostSource : ChainSource where
  getRawTx _ := .ok (some (ascii "zz"))
  getTime _ := .ok 0
  getSpendingTxid txid _ :=
    if txid = ascii "genesis" then .ok (some (ascii "spender")) else .error .enet

/-- With other identities in its caches the oracle fails open where the walk ends behind the
malformed spender, and closed where the next lookup fails. -/
theorem isRevoked_failClosed_iff_malformed :
    (¬ FailClosed (fun _ => malformedSource)
        ⟨0, defaultMaxHops, [ascii "revoked"], [⟨ascii "other", ascii "tip"⟩]⟩ (ascii "genesis"))
      ∧ FailClosed (fun _ => lostSource)
        ⟨0, defaultMaxHops, [ascii "revoked"], [⟨ascii "other", ascii "tip"⟩]⟩
        (ascii "genesis") := by
  refine ⟨fun h => ?_, (isRevoked_failClosed_iff ⟨by decide, by decide⟩).mpr ?_⟩
  · have hnever := (isRevoked_failClosed_iff ⟨by decide, by decide⟩).mp h
    refine hnever 0 (by decide) _ .start ⟨ascii "spender", ascii "zz", .eparse, ⟨rfl, rfl⟩, rfl⟩
      ⟨1, by decide, ascii "spender", ?_, .inl rfl⟩
    exact .next .start ⟨rfl, rfl⟩ rfl
  · rintro - - - - - ⟨n, -, tip, -, hu | ⟨s, raw, hs, ht⟩⟩
    · simp only [lostSource] at hu
      split_ifs at hu
      cases hu
    · obtain rfl : ascii "zz" = raw := by simpa [lostSource] using hs.2
      exact absurd ht (by decide)

end RevocationOracle

end FailClosed

end BonsaiChain
