import BonsaiChain.Proofs.KeyBroker
import BonsaiChain.Proofs.ReputationIndexer

/-!
# The kill switch across the broker and the oracle

A key is issued for an outpoint, but the oracle is asked by txid and follows output 0. No issue and
no authorization succeeds once the lineage of output 0 holds a terminal spend, which is the lineage
of the issued outpoint when the key was issued for output 0. For another output the two may differ.
-/

namespace BonsaiChain

open Lib Relation

section System

/-- A broker over a revocation oracle over a chain, with the outpoint each key was issued for. -/
structure KillState where
  chain : Chain
  oracle : RevocationOracle
  broker : KeyBroker
  issuedFor : List (CString × UInt32)

/-- `chain_revocation_oracle_as_oracle` over a source as it answers during one query. -/
def oracleAsk (srcs : ℕ → ChainSource) : Ask RevocationOracle := fun o identityId =>
  o.isRevoked srcs identityId

/-- The outpoint an issuing call is about. -/
def IssueFromChainArgs.outpoint (args : IssueFromChainArgs) : CString × UInt32 :=
  (args.identityId.getD [], args.identityVout)

variable (sha256 : Bytes → Bytes)

/-- One call of `key_broker_issue_from_chain`. -/
def KillState.issue (s : KillState) (srcs : ℕ → ChainSource) (args : IssueFromChainArgs)
    (view : IdentityChainView) (rand : IssueRandom) (now : Int) :
    Except (Err × CString) (IssuedKey × CString) × KillState :=
  let r := s.broker.issueFromChain sha256 (oracleAsk srcs) s.oracle args view rand now
  let issuedFor := match r.1 with
    | .ok _ => s.issuedFor ++ [args.outpoint]
    | .error _ => s.issuedFor
  (r.1, ⟨s.chain, r.2.2, r.2.1, issuedFor⟩)

/-- One call of `key_broker_authorize`. -/
def KillState.authorize (s : KillState) (srcs : ℕ → ChainSource) (req : AuthorizationRequest)
    (now : Int) : AuthorizationDecision × KillState :=
  let r := s.broker.authorize sha256 (oracleAsk srcs) s.oracle req now
  (r.1, ⟨s.chain, r.2.2, r.2.1, s.issuedFor⟩)

/-- The chain grows, or a call is made over a source that reads the chain and may fail. -/
inductive KillStep : KillState → KillState → Prop
  | grow {s : KillState} {c : Chain} (h : s.chain.Grows c) :
      KillStep s ⟨c, s.oracle, s.broker, s.issuedFor⟩
  | issue {s : KillState} (srcs : ℕ → ChainSource) (h : ∀ i, (srcs i).AnswersFrom s.chain)
      (args : IssueFromChainArgs) (view : IdentityChainView) (rand : IssueRandom) (now : Int) :
      KillStep s (s.issue sha256 srcs args view rand now).2
  | authorize {s : KillState} (srcs : ℕ → ChainSource) (h : ∀ i, (srcs i).AnswersFrom s.chain)
      (req : AuthorizationRequest) (now : Int) : KillStep s (s.authorize sha256 srcs req now).2

/-- The states of a broker whose oracle has the default output index and any hop budget. -/
def KillReachable (s : KillState) : Prop :=
  ∃ c maxHops, ReflTransGen (KillStep sha256)
    ⟨c, RevocationOracle.new ⟨none, maxHops⟩, KeyBroker.new, []⟩ s

/-- If the lineage of the outpoint holds a terminal spend, so does the lineage of output 0, which is
the one the oracle follows. -/
def FollowedByOracle (c : Chain) (p : CString × UInt32) : Prop :=
  c.Revoked p.1 p.2 → c.Revoked p.1 0

end System

section Calls

variable {σ : Type} {sha256 : Bytes → Bytes} {ask : Ask σ} {b : KeyBroker} {o : σ}
  {args : IssueFromChainArgs} {view : IdentityChainView} {rand : IssueRandom} {now : Int}

/-- An issuing call either adds one key for the identity, which the oracle has just called live, or
leaves the broker as it was. -/
theorem issueFromChain_cases (sha256 : Bytes → Bytes) (ask : Ask σ) (b : KeyBroker) (o : σ)
    (args : IssueFromChainArgs) (view : IdentityChainView) (rand : IssueRandom) (now : Int) :
    (∃ r sk, b.issueFromChain sha256 ask o args view rand now
          = (.ok r, ⟨b.keys ++ [sk]⟩, (ask o (args.identityId.getD [])).2)
        ∧ (ask o (args.identityId.getD [])).1 = .ok false
        ∧ sk.pub.identityId = args.identityId.getD [])
      ∨ ∃ e o', b.issueFromChain sha256 ask o args view rand now = (.error e, b, o')
        ∧ (o' = o ∨ o' = (ask o (args.identityId.getD [])).2) := by
  unfold KeyBroker.issueFromChain
  rcases KeyBroker.bindingCheck view args with _ | reason
  swap
  · exact .inr ⟨_, o, rfl, .inl rfl⟩
  simp only []
  rcases ha : ask o (args.identityId.getD []) with ⟨e | _ | _, o'⟩ <;> simp only []
  · exact .inr ⟨_, o', rfl, .inr rfl⟩
  · unfold KeyBroker.issue
    rcases rand with ⟨_ | idRaw, _ | secRaw⟩
    · exact .inr ⟨_, o', rfl, .inr rfl⟩
    · exact .inr ⟨_, o', rfl, .inr rfl⟩
    · exact .inr ⟨_, o', rfl, .inr rfl⟩
    · exact .inl ⟨_, _, rfl, trivial, rfl⟩
  · exact .inr ⟨_, o', rfl, .inr rfl⟩

/-- An authorization keeps the identity of every key and asks the oracle at most once. -/
theorem authorize_keys (sha256 : Bytes → Bytes) (ask : Ask σ) (b : KeyBroker) (o : σ)
    (req : AuthorizationRequest) (now : Int) :
    (b.authorize sha256 ask o req now).2.1.keys.map (fun k => k.pub) = b.keys.map (fun k => k.pub)
      ∧ ((b.authorize sha256 ask o req now).2.2 = o
        ∨ ∃ id, (b.authorize sha256 ask o req now).2.2 = (ask o id).2) := by
  have hset : ∀ {i : ℕ} {k k' : StoredKey}, b.keys[i]? = some k → k'.pub = k.pub →
      (b.setKey i k').keys.map (fun k => k.pub) = b.keys.map (fun k => k.pub) := by
    intro i k k' hk hpub
    apply List.ext_getElem?
    intro j
    rw [List.getElem?_map, List.getElem?_map, KeyBroker.setKey_keys hk]
    by_cases hj : j = i
    · rw [if_pos hj, hj, hk]
      simp [hpub]
    · rw [if_neg hj]
  have hout := KeyBroker.authorize_outcome sha256 ask b o req now
  generalize b.authorize sha256 ask o req now = r at hout
  cases hout with
  | unknown | latched => exact ⟨rfl, .inl rfl⟩
  | refused _ _ ha => exact ⟨rfl, .inr ⟨_, by rw [ha]⟩⟩
  | revoked h _ ha =>
    exact ⟨hset (KeyBroker.lookupBySecret_eq_some h).1 rfl, .inr ⟨_, by rw [ha]⟩⟩
  | metered h _ ha =>
    exact ⟨hset (KeyBroker.lookupBySecret_eq_some h).1 rfl, .inr ⟨_, by rw [ha]⟩⟩

end Calls

section Run

variable {sha256 : Bytes → Bytes} {s s' : KillState} {srcs : ℕ → ChainSource}

/-- The oracle follows output 0 with sound caches, and every key carries the txid of the outpoint
it was issued for. -/
structure KillInv (s : KillState) : Prop where
  vout : s.oracle.identityVout = 0
  cache : s.oracle.CacheOk s.chain fun _ => 0
  issued : s.broker.keys.map (fun k => k.pub.identityId) = s.issuedFor.map Prod.fst

theorem KillInv.ask (h : KillInv s) (hsrc : ∀ i, (srcs i).AnswersFrom s.chain) (id : CString) :
    (oracleAsk srcs s.oracle id).2.identityVout = 0
      ∧ (oracleAsk srcs s.oracle id).2.CacheOk s.chain fun _ => 0 :=
  ⟨(RevocationOracle.isRevoked_vout srcs s.oracle id).trans h.vout, (h.cache.isRevoked hsrc id).1⟩

/-- An identity the oracle calls live has no terminal spend on the lineage of output 0. -/
theorem KillInv.not_revoked (h : KillInv s) (hsrc : ∀ i, (srcs i).AnswersFrom s.chain)
    {id : CString} (hlive : (oracleAsk srcs s.oracle id).1 = .ok false) :
    ¬ s.chain.Revoked id 0 := by
  intro hrev
  have hends := (h.cache.isRevoked hsrc id).2 false hlive
  rw [h.vout] at hends
  exact Bool.noConfusion (Halts.unique hrev hends)

theorem KillInv.step (h : KillInv s) (hstep : KillStep sha256 s s') : KillInv s' := by
  cases hstep with
  | grow hg => exact ⟨h.vout, h.cache.grows hg, h.issued⟩
  | issue srcs hsrc args view rand now =>
    unfold KillState.issue
    rcases issueFromChain_cases sha256 (oracleAsk srcs) s.broker s.oracle args view rand now with
      ⟨r, sk, heq, -, hid⟩ | ⟨e, o', heq, ho'⟩ <;> rw [heq]
    · obtain ⟨hv, hc⟩ := h.ask hsrc (args.identityId.getD [])
      refine ⟨hv, hc, ?_⟩
      simp [h.issued, hid, IssueFromChainArgs.outpoint]
    · rcases ho' with rfl | rfl
      · exact ⟨h.vout, h.cache, h.issued⟩
      · obtain ⟨hv, hc⟩ := h.ask hsrc (args.identityId.getD [])
        exact ⟨hv, hc, h.issued⟩
  | authorize srcs hsrc req now =>
    obtain ⟨hkeys, ho⟩ := authorize_keys sha256 (oracleAsk srcs) s.broker s.oracle req now
    have hissued : (s.broker.authorize sha256 (oracleAsk srcs) s.oracle req now).2.1.keys.map
        (fun k => k.pub.identityId) = s.issuedFor.map Prod.fst := by
      have := congrArg (List.map IssuedKey.identityId) hkeys
      rw [List.map_map, List.map_map] at this
      exact this.trans h.issued
    have horacle :
        (s.broker.authorize sha256 (oracleAsk srcs) s.oracle req now).2.2.identityVout = 0
        ∧ (s.broker.authorize sha256 (oracleAsk srcs) s.oracle req now).2.2.CacheOk s.chain
          fun _ => 0 := by
      rcases ho with ho | ⟨id, ho⟩ <;> rw [ho]
      · exact ⟨h.vout, h.cache⟩
      · exact h.ask hsrc id
    exact ⟨horacle.1, horacle.2, hissued⟩

theorem killInv_reachable (h : KillReachable sha256 s) : KillInv s := by
  obtain ⟨c, maxHops, h⟩ := h
  induction h with
  | refl => exact ⟨rfl, RevocationOracle.cacheOk_new c ⟨none, maxHops⟩ rfl, rfl⟩
  | tail _ hstep ih => exact ih.step hstep

/-- In every reachable state, a call on an outpoint whose lineage the oracle follows succeeds only
while that lineage holds no terminal spend, and every key has such an outpoint. -/
theorem killSwitch (h : KillReachable sha256 s) (hsrc : ∀ i, (srcs i).AnswersFrom s.chain) :
    (∀ args view rand now, FollowedByOracle s.chain args.outpoint →
      (∃ r, (s.issue sha256 srcs args view rand now).1 = .ok r) →
        ¬ s.chain.Revoked args.outpoint.1 args.outpoint.2)
      ∧ ∀ req now i k, s.broker.lookupBySecret sha256 req.secret = some (i, k) →
        ∃ p, s.issuedFor[i]? = some p ∧ (FollowedByOracle s.chain p →
          (s.authorize sha256 srcs req now).1.allowed = true → ¬ s.chain.Revoked p.1 p.2) := by
  have hinv := killInv_reachable h
  refine ⟨fun args view rand now hfol hok hrev => ?_, fun req now i k hl => ?_⟩
  · obtain ⟨r, hr⟩ := hok
    rcases issueFromChain_cases sha256 (oracleAsk srcs) s.broker s.oracle args view rand now with
      ⟨r', sk, heq, hlive, -⟩ | ⟨e, o', heq, -⟩
    · exact hinv.not_revoked hsrc hlive (hfol hrev)
    · unfold KillState.issue at hr
      rw [heq] at hr
      cases hr
  · have hki := (KeyBroker.lookupBySecret_eq_some hl).1
    have hid := congrArg (fun l => l[i]?) hinv.issued
    simp only [List.getElem?_map, hki, Option.map_some] at hid
    obtain ⟨p, hp, hpid⟩ := Option.map_eq_some_iff.mp hid.symm
    refine ⟨p, hp, fun hfol hallowed hrev => ?_⟩
    obtain ⟨j, k', hall, -⟩ :=
      @KeyBroker.authorize_allowed _ sha256 (s.broker, s.oracle) _ req now hallowed
    obtain ⟨rfl, rfl⟩ : i = j ∧ k = k' := by simpa [hl] using hall.addressed
    refine hinv.not_revoked hsrc hall.live ?_
    rw [← hpid]
    exact hfol hrev

end Run

section Dissolved

/-- A script with a charter hash and an agent key in it. -/
def identityScript : Bytes :=
  [0x20] ++ List.replicate 32 0xaa ++ [0x21, 0x02] ++ List.replicate 32 0xbb

/-- A genesis whose outputs 0 and 1 are both identities. -/
def twoIdentities : Tx :=
  ⟨1, [⟨txidOf 0x10, 0, [], 0xffffffff⟩], [⟨1, identityScript⟩, ⟨1, identityScript⟩], 0⟩

theorem twoIdentities_ok : twoIdentities.Ok :=
  ⟨by simp [twoIdentities, TxIn.Ok, txidOf_isTxid],
    by simp [twoIdentities, TxOut.Ok, identityScript],
    by simp [twoIdentities], by simp [twoIdentities]⟩

/-- Output 1 of `11…` is dissolved by `22…`, output 0 is unspent. -/
def dissolvedChain : Chain where
  spender txid vout :=
    if txid = txidOf 0x11 ∧ vout = 1 then some (txidOf 0x22) else none
  rawTx txid :=
    if txid = txidOf 0x11 then some (RawTx.ofTx twoIdentities twoIdentities_ok)
    else if txid = txidOf 0x22 then
      some (RawTx.ofTx (spendOf (txidOf 0x11) 1 (p2pkhScript (List.replicate 20 0)))
        (spendOf_ok (txidOf_isTxid _) (by simp [p2pkhScript])))
    else none
  spenderRaw txid vout s h := by
    split_ifs at h
    obtain rfl := Option.some.inj h
    decide

/-- The broker over `dissolvedChain` before any call. -/
def freshBroker : KillState :=
  ⟨dissolvedChain, RevocationOracle.new {}, KeyBroker.new, []⟩

def dissolvedSource : ChainSource := dissolvedChain.source fun _ => 0

/-- The arguments that issue a key for an output of `11…`. -/
def issueArgsAt (vout : UInt32) : IssueFromChainArgs where
  identityId := some (txidOf 0x11)
  identityVout := vout
  expectedLockingScriptHex := some (hexEncode identityScript)
  agentPubKey := some (hexEncode (0x02 :: List.replicate 32 0xbb))
  ricardianHash := some (hexEncode (List.replicate 32 0xaa))
  params := ⟨10, 10, 3600⟩
  scopes := [ascii "pay"]

def zeroRandom : IssueRandom := ⟨some ⟨List.replicate 16 0, rfl⟩, some ⟨List.replicate 24 0, rfl⟩⟩

/-- A hash of the right length, to run the broker with. -/
def zeroHash : Bytes → Bytes := fun _ => List.replicate 32 0

/-- The result of issuing a key for an output of `11…` on `dissolvedChain`. -/
def issueAt (vout : UInt32) : Except (Err × CString) (IssuedKey × CString) × KillState :=
  freshBroker.issue zeroHash (fun _ => dissolvedSource) (issueArgsAt vout)
    dissolvedSource.identityView zeroRandom 0

theorem exists_ok_of_isSome {ε α : Type} {x : Except ε α} (h : x.toOption.isSome = true) :
    ∃ a, x = .ok a := by
  rcases x with e | a
  · cases h
  · exact ⟨a, rfl⟩

theorem freshBroker_reachable : KillReachable zeroHash freshBroker := ⟨_, none, .refl⟩

/-- A key is issued for the dissolved output 1, and authorizes a payment. -/
theorem killSwitch_vout_one : KillReachable zeroHash freshBroker
    ∧ dissolvedChain.Revoked (txidOf 0x11) 1
    ∧ (∃ r, (issueAt 1).1 = .ok r)
    ∧ ((issueAt 1).2.authorize zeroHash (fun _ => dissolvedSource)
        ⟨some (ascii "pk_" ++ hexEncode (List.replicate 24 0)), some (ascii "pay"), 1⟩ 0).1.allowed
      = true := by
  refine ⟨freshBroker_reachable, halts_of_end (by decide +kernel), ?_, by decide +kernel⟩
  exact exists_ok_of_isSome (by decide +kernel)

theorem killSwitch_vout_zero : ¬ dissolvedChain.Revoked (txidOf 0x11) 0 :=
  (killSwitch freshBroker_reachable fun _ => dissolvedChain.source_answersFrom fun _ => 0).1
    (issueArgsAt 0) dissolvedSource.identityView zeroRandom 0 id
    (exists_ok_of_isSome (by decide +kernel))

end Dissolved

end BonsaiChain
