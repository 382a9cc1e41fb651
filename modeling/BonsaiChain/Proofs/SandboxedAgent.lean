import BonsaiChain.Proofs.KeyBroker
import BonsaiChain.Proofs.PrivateEnclave
import BonsaiChain.Proofs.WindowRun
import BonsaiChain.SandboxedAgent

/-!
# Every egress is mediated

Agents act through one broker while it serves other calls. An entry of the log says which key a call
was charged to and what the call did outside the broker. The provider is invoked only behind an
allowed authorization and a seal of the same payload, and what a key was charged for its invocations
in one window stays within its limit.
-/

namespace BonsaiChain

open Lib

section Log

/-- The key an authorization is charged to, by its position, and what it is granted. -/
def KeyBroker.charged {σ : Type} (sha256 : Bytes → Bytes) (ask : Ask σ) (b : KeyBroker) (o : σ)
    (req : AuthorizationRequest) (now : Int) : Option (ℕ × Grant ℤ) :=
  if (b.authorize sha256 ask o req now).1.allowed then
    (b.lookupBySecret sha256 req.secret).map fun (i, k) =>
      (i, ⟨req.amount, now, k.accountant.opens k.pub.envelope now⟩)
  else none

/-- What a call was charged and what it did outside the broker. -/
structure Entry where
  charge : Option (ℕ × Grant ℤ)
  effects : List Effect
  deriving DecidableEq, Repr

def grantTo (i : ℕ) (charge : Option (ℕ × Grant ℤ)) : Option (Grant ℤ) :=
  charge.bind fun (j, g) => if j = i then some g else none

namespace Entry

/-- The call opened a window of the key at position `i`. -/
def Rolls (i : ℕ) (e : Entry) : Prop := ∃ g ∈ grantTo i e.charge, g.opens = true

def invokes (e : Entry) : Bool :=
  e.effects.any fun effect => match effect with
    | .invoked _ _ => true
    | .sealed _ _ _ => false

/-- What the key at position `i` was charged for an invocation of the provider. -/
def invokedAmount (i : ℕ) (e : Entry) : ℤ :=
  if e.invokes then (grantTo i e.charge).elim 0 Grant.amount else 0

end Entry

def grantsTo (i : ℕ) (log : List Entry) : List (Grant ℤ) :=
  log.filterMap fun e => grantTo i e.charge

def invokedAmount (i : ℕ) (log : List Entry) : ℤ := (log.map (Entry.invokedAmount i)).sum

end Log

namespace Egress

section Calls

/-- An act of an agent, or another call on the broker, with what it reads. -/
inductive Call (σ ν π ρ : Type) where
  | act (agent : SandboxedAgent ν π ρ) (req : AgentActionRequest) (reads : ActReads σ)
  | broker (c : KeyBroker.Call σ)
  | issueFromChain (ask : Ask σ) (args : IssueFromChainArgs) (view : IdentityChainView)
      (rand : IssueRandom) (now : Int)

variable {σ ν π ρ : Type}

/-- What a call leaves and its entry in the log. -/
def call (crypto : EnclaveCrypto) (s : Egress σ ν π) : Call σ ν π ρ → Egress σ ν π × Entry
  | .act agent req reads =>
    let (_, s', effects) := sandboxedAgentAct crypto agent s req reads
    (s', ⟨s.broker.charged crypto.sha256 reads.ask s.oracle (agent.authorization req) reads.now,
      effects⟩)
  | .broker c =>
    let (broker, oracle) := KeyBroker.step crypto.sha256 (s.broker, s.oracle) c
    let charge := match c with
      | .authorize ask req now => s.broker.charged crypto.sha256 ask s.oracle req now
      | _ => none
    ({ s with broker, oracle }, ⟨charge, []⟩)
  | .issueFromChain ask args view rand now =>
    let (_, broker, oracle) :=
      KeyBroker.issueFromChain crypto.sha256 ask s.broker s.oracle args view rand now
    ({ s with broker, oracle }, ⟨none, []⟩)

/-- The parties after some calls, with the log of the calls. -/
structure Logged (σ ν π : Type) where
  egress : Egress σ ν π
  log : List Entry

def step (crypto : EnclaveCrypto) (r : Logged σ ν π) (c : Call σ ν π ρ) : Logged σ ν π :=
  let (s, e) := call crypto r.egress c
  ⟨s, r.log ++ [e]⟩

/-- The run of the calls behind a new broker. -/
def after (crypto : EnclaveCrypto) (o : σ) (v : ν) (p : π) (cs : List (Call σ ν π ρ)) :
    Logged σ ν π :=
  run (step crypto) ⟨⟨.new, o, v, p⟩, []⟩ cs

end Calls

section Windows

/-- What a call with this charge may do to the accountants. -/
structure Charges (b b' : KeyBroker) (charge : Option (ℕ × Grant ℤ)) : Prop where
  kept : ∀ (i : ℕ) (k : StoredKey), b.keys[i]? = some k → ∃ k', b'.keys[i]? = some k'
    ∧ k'.pub = k.pub ∧ ∀ gs, WindowRun.Meters k.pub.envelope ⟨k.accountant, gs⟩ →
      WindowRun.Meters k.pub.envelope ⟨k'.accountant, gs ++ (grantTo i charge).toList⟩
  fresh : ∀ (i : ℕ) (k' : StoredKey), b.keys[i]? = none → b'.keys[i]? = some k' →
    k'.accountant = .init
  absent : ∀ i : ℕ, b.keys[i]? = none → grantTo i charge = none

theorem Charges.none {b b' : KeyBroker}
    (hkept : ∀ (i : ℕ) (k : StoredKey), b.keys[i]? = some k → ∃ k', b'.keys[i]? = some k'
      ∧ k'.pub = k.pub ∧ k'.accountant = k.accountant)
    (hfresh : ∀ (i : ℕ) (k' : StoredKey), b.keys[i]? = .none → b'.keys[i]? = some k' →
      k'.accountant = .init) : Charges b b' .none := by
  refine ⟨fun i k hk => ?_, hfresh, fun i _ => rfl⟩
  obtain ⟨k', hk', hpub, hacc⟩ := hkept i k hk
  refine ⟨k', hk', hpub, fun gs hgs => ?_⟩
  rw [hacc]
  simpa [grantTo] using hgs

theorem Charges.refl (b : KeyBroker) : Charges b b .none :=
  .none (fun _ k hk => ⟨k, hk, rfl, rfl⟩) fun i k' hnone hk' => by simp [hnone] at hk'

variable {σ : Type} {sha256 : Bytes → Bytes}

theorem charges_issue (b : KeyBroker) (args : IssueArgs) (rand : IssueRandom) (now : Int) :
    Charges b (b.issue sha256 args rand now).2 .none := by
  unfold KeyBroker.issue
  rcases rand.idRaw with _ | idRaw
  · exact .refl b
  rcases rand.secRaw with _ | secRaw
  · exact .refl b
  refine .none (fun i k hk => ?_) fun i k' hnone hk' => ?_
  · obtain ⟨hlt, -⟩ := List.getElem?_eq_some_iff.mp hk
    refine ⟨k, ?_, rfl, rfl⟩
    rw [List.getElem?_append_left hlt, hk]
  · rw [List.getElem?_append_right (List.getElem?_eq_none_iff.mp hnone),
      List.getElem?_singleton] at hk'
    split_ifs at hk'
    obtain rfl := Option.some.inj hk'
    rfl

theorem charges_issueFromChain (ask : Ask σ) (b : KeyBroker) (o : σ) (args : IssueFromChainArgs)
    (view : IdentityChainView) (rand : IssueRandom) (now : Int) :
    Charges b (b.issueFromChain sha256 ask o args view rand now).2.1 .none := by
  unfold KeyBroker.issueFromChain
  rcases KeyBroker.bindingCheck view args with _ | reason
  · rcases ask o (args.identityId.getD []) with ⟨e | _ | _, o'⟩
    · exact .refl b
    · have hissue : Charges b (b.issue sha256 ⟨args.agentPubKey, args.ricardianHash,
          args.identityId, envelopeFromIdentity args.params args.scopes⟩ rand now).2 .none :=
        charges_issue b _ rand now
      simp only []
      split <;> rename_i heq <;> rwa [heq] at hissue
    · exact .refl b
  · exact .refl b

theorem charges_revokeLocally (b : KeyBroker) (keyId : Option CString) :
    Charges b (b.revokeLocally keyId).2 .none := by
  unfold KeyBroker.revokeLocally
  rcases b.findByKeyId keyId with _ | j
  · exact .refl b
  refine .none (fun i k hk => ?_) fun i k' hnone hk' => ?_
  · simp only [List.getElem?_modify, hk, Option.map_eq_map, Option.map_some]
    refine ⟨_, rfl, ?_, ?_⟩
    · split_ifs <;> rfl
    · split_ifs <;> rfl
  · simp [List.getElem?_modify, hnone] at hk'

/-- An authorization charges the key it is allowed on as the accountant of that key is charged. -/
theorem charges_authorize (ask : Ask σ) (b : KeyBroker) (o : σ) (req : AuthorizationRequest)
    (now : Int) :
    Charges b (b.authorize sha256 ask o req now).2.1 (b.charged sha256 ask o req now) := by
  unfold KeyBroker.charged
  have hout := KeyBroker.authorize_outcome sha256 ask b o req now
  generalize b.authorize sha256 ask o req now = r at hout
  cases hout with
  | unknown _ hd | latched _ _ hd | refused _ _ _ _ hd =>
    simp only [hd]
    exact .refl b
  | @revoked d j k o' hl _ _ hd =>
    simp only [hd]
    have hj := (KeyBroker.lookupBySecret_eq_some hl).1
    refine .none (fun i k' hk' => ?_) fun i k' hnone hk' => ?_
    · rw [KeyBroker.setKey_keys hj]
      split_ifs with hij
      · subst hij
        obtain rfl := Option.some.inj (hj.symm.trans hk')
        exact ⟨_, rfl, rfl, rfl⟩
      · exact ⟨k', hk', rfl, rfl⟩
    · rw [KeyBroker.setKey_keys hj] at hk'
      split_ifs at hk' with hij
      · simp [hij ▸ hj] at hnone
      · simp [hnone] at hk'
  | @metered d j k o' scope hl _ _ _ _ hd =>
    have hj := (KeyBroker.lookupBySecret_eq_some hl).1
    simp only [hl, hd, Option.map_some]
    have hother : ∀ (i : ℕ) (g : Grant ℤ), i ≠ j →
        grantTo i (if (k.accountant.charge k.pub.envelope req.amount now).1.allowed then
          some (j, g) else .none) = .none := by
      intro i g hij
      split_ifs
      · simp [grantTo, Ne.symm hij]
      · rfl
    refine ⟨fun i k₁ hk₁ => ?_, fun i k' hnone hk' => ?_, fun i hnone => hother i _ ?_⟩
    · rw [KeyBroker.setKey_keys hj]
      by_cases hij : i = j
      · subst hij
        obtain rfl := Option.some.inj (hj.symm.trans hk₁)
        refine ⟨_, if_pos rfl, rfl, fun gs hgs => ?_⟩
        have hstep := hgs.step ⟨req.amount, now⟩
        unfold WindowRun.step at hstep
        simp only at hstep
        split_ifs at hstep ⊢ with hallowed
        · simpa [grantTo] using hstep
        · simpa [grantTo] using hstep
      · refine ⟨k₁, by rw [if_neg hij, hk₁], rfl, fun gs hgs => ?_⟩
        rw [hother i _ hij]
        simpa using hgs
    · rw [KeyBroker.setKey_keys hj] at hk'
      split_ifs at hk' with hij
      · simp [hij ▸ hj] at hnone
      · simp [hnone] at hk'
    · rintro rfl
      simp [hj] at hnone

end Windows

section Act

variable {σ ν π ρ : Type} {crypto : EnclaveCrypto} {agent : SandboxedAgent ν π ρ}
  {s : Egress σ ν π} {req : AgentActionRequest} {reads : ActReads σ}

theorem sandboxedAgentEffect_broker (s : Egress σ ν π) (reads : SealReads) :
    (sandboxedAgentEffect crypto agent s req reads).2.1.broker = s.broker := by
  unfold sandboxedAgentEffect
  split
  · rfl
  · simp only []
    split <;> rfl

theorem sandboxedAgentAct_broker : (sandboxedAgentAct crypto agent s req reads).2.1.broker
    = (s.broker.authorize crypto.sha256 reads.ask s.oracle (agent.authorization req)
        reads.now).2.1 := by
  unfold sandboxedAgentAct
  simp only []
  split_ifs
  · rfl
  · exact sandboxedAgentEffect_broker _ _

/-- Every call charges the accountants as its entry says. -/
theorem charges_call (s : Egress σ ν π) (c : Call σ ν π ρ) :
    Charges s.broker (call crypto s c).1.broker (call crypto s c).2.charge := by
  cases c with
  | act agent req reads =>
    show Charges _ (sandboxedAgentAct crypto agent s req reads).2.1.broker _
    rw [sandboxedAgentAct_broker]
    exact charges_authorize reads.ask s.broker s.oracle _ reads.now
  | broker c =>
    cases c with
    | issue args rand now => exact charges_issue s.broker args rand now
    | authorize ask req now => exact charges_authorize ask s.broker s.oracle req now
    | revokeLocally keyId => exact charges_revokeLocally s.broker keyId
    | getKey keyId => exact .refl s.broker
  | issueFromChain ask args view rand now =>
    exact charges_issueFromChain ask s.broker s.oracle args view rand now

/-- What stands behind an invocation of the provider. -/
structure Mediated (crypto : EnclaveCrypto) (s : Egress σ ν π) (agent : SandboxedAgent ν π ρ)
    (req : AgentActionRequest) (reads : ActReads σ) (scope : Option CString) (payload : Bytes) :
    Prop where
  request : req.scope = scope ∧ req.payload = some payload
  allowed : (s.broker.authorize crypto.sha256 reads.ask s.oracle (agent.authorization req)
    reads.now).1.allowed = true
  charged : ∃ i g, (call crypto s (.act agent req reads)).2.charge = some (i, g)
    ∧ (∃ k, s.broker.lookupBySecret crypto.sha256 (some agent.secret) = some (i, k))
    ∧ g.amount = req.amount
  sealed : ∃ action, (call crypto s (.act agent req reads)).2.effects
      = [.sealed agent.identityId payload action, .invoked scope payload]
    ∧ Seals crypto agent.ensureKey s.vault (call crypto s (.act agent req reads)).1.vault
      agent.identityId payload action

theorem sandboxedAgentEffect_invoked {sealReads : SealReads} {scope : Option CString}
    {payload : Bytes}
    (h : .invoked scope payload ∈ (sandboxedAgentEffect crypto agent s req sealReads).2.2) :
    req.scope = scope ∧ req.payload = some payload ∧
      ∃ action, (sandboxedAgentEffect crypto agent s req sealReads).2.2
          = [.sealed agent.identityId payload action, .invoked scope payload]
        ∧ Seals crypto agent.ensureKey s.vault
          (sandboxedAgentEffect crypto agent s req sealReads).2.1.vault agent.identityId payload
          action := by
  unfold sandboxedAgentEffect at h ⊢
  rcases hseal : privateEnclaveSealAction crypto agent.ensureKey s.vault agent.identityId
    req.payload req.provenance sealReads with ⟨e | action, vault⟩
  · simp [hseal] at h
  obtain ⟨bytes, hpayload, hseals⟩ := sealAction_eq_ok hseal
  rw [hpayload] at hseal
  simp only [hpayload, hseal, Option.getD_some] at h ⊢
  rcases hinvoke : agent.invoke s.provider req.scope bytes with ⟨e | result, provider⟩
  all_goals
    simp only [hinvoke, List.mem_cons, reduceCtorEq, Effect.invoked.injEq, List.not_mem_nil,
      or_false, false_or] at h ⊢
    obtain ⟨rfl, rfl⟩ := h
    exact ⟨rfl, rfl, action, rfl, hseals⟩

/-- The parties behind the authorization of an act. -/
def authorized (crypto : EnclaveCrypto) (s : Egress σ ν π) (agent : SandboxedAgent ν π ρ)
    (req : AgentActionRequest) (reads : ActReads σ) : Egress σ ν π :=
  let r := s.broker.authorize crypto.sha256 reads.ask s.oracle (agent.authorization req) reads.now
  { s with broker := r.2.1, oracle := r.2.2 }

theorem sandboxedAgentAct_of_denied (h : (s.broker.authorize crypto.sha256 reads.ask s.oracle
      (agent.authorization req) reads.now).1.allowed = false) :
    sandboxedAgentAct crypto agent s req reads = (.ok ⟨false, (s.broker.authorize crypto.sha256
      reads.ask s.oracle (agent.authorization req) reads.now).1.reason, none, none, none, none⟩,
      authorized crypto s agent req reads, []) := by
  unfold sandboxedAgentAct
  simp only [h, Bool.not_false, if_true]
  rfl

theorem sandboxedAgentAct_of_allowed (h : (s.broker.authorize crypto.sha256 reads.ask s.oracle
      (agent.authorization req) reads.now).1.allowed = true) :
    sandboxedAgentAct crypto agent s req reads = sandboxedAgentEffect crypto agent
      (authorized crypto s agent req reads) req reads.sealReads := by
  unfold sandboxedAgentAct
  simp only [h, Bool.not_true, Bool.false_eq_true, if_false]
  rfl

theorem call_act (s : Egress σ ν π) (agent : SandboxedAgent ν π ρ) (req : AgentActionRequest)
    (reads : ActReads σ) : call crypto s (.act agent req reads) =
      ((sandboxedAgentAct crypto agent s req reads).2.1,
        ⟨s.broker.charged crypto.sha256 reads.ask s.oracle (agent.authorization req) reads.now,
          (sandboxedAgentAct crypto agent s req reads).2.2⟩) := rfl

/-- The provider is invoked by an act only, behind its authorization and its seal. -/
theorem call_invoked {c : Call σ ν π ρ} {scope : Option CString} {payload : Bytes}
    (h : .invoked scope payload ∈ (call crypto s c).2.effects) :
    ∃ agent req reads, c = .act agent req reads
      ∧ Mediated crypto s agent req reads scope payload := by
  cases c with
  | broker c => simp [call] at h
  | issueFromChain ask args view rand now => simp [call] at h
  | act agent req reads =>
    refine ⟨agent, req, reads, rfl, ?_⟩
    rw [call_act] at h
    by_cases hallowed : (s.broker.authorize crypto.sha256 reads.ask s.oracle
      (agent.authorization req) reads.now).1.allowed = true
    · have hact := sandboxedAgentAct_of_allowed hallowed
      rw [hact] at h
      obtain ⟨hscope, hpayload, hsealed⟩ := sandboxedAgentEffect_invoked h
      obtain ⟨i, k, hall, -⟩ := @KeyBroker.authorize_allowed _ _ (s.broker, s.oracle) _ _ _ hallowed
      refine ⟨⟨hscope, hpayload⟩, hallowed, ⟨i, ⟨req.amount, reads.now,
        k.accountant.opens k.pub.envelope reads.now⟩, ?_, ⟨k, hall.addressed⟩, rfl⟩, ?_⟩
      · rw [call_act]
        unfold KeyBroker.charged
        rw [if_pos hallowed, hall.addressed]
        rfl
      · rw [call_act, hact]
        exact hsealed
    · rw [sandboxedAgentAct_of_denied (by simpa using hallowed)] at h
      simp at h

end Act

section Run

variable {σ ν π ρ : Type} {crypto : EnclaveCrypto}

@[simp] theorem grantsTo_append (i : ℕ) (log log' : List Entry) :
    grantsTo i (log ++ log') = grantsTo i log ++ grantsTo i log' := List.filterMap_append

theorem grantsTo_cons (i : ℕ) (e : Entry) (log : List Entry) :
    grantsTo i (e :: log) = (grantTo i e.charge).toList ++ grantsTo i log := by
  unfold grantsTo
  rw [List.filterMap_cons]
  rcases grantTo i e.charge with _ | g <;> rfl

/-- Every accountant has metered what the log says its key was charged. -/
structure Metering (r : Logged σ ν π) : Prop where
  meters : ∀ (i : ℕ) (k : StoredKey), r.egress.broker.keys[i]? = some k →
    WindowRun.Meters k.pub.envelope ⟨k.accountant, grantsTo i r.log⟩
  absent : ∀ i : ℕ, r.egress.broker.keys[i]? = none → grantsTo i r.log = []

theorem Metering.step {r : Logged σ ν π} (h : Metering r) (c : Call σ ν π ρ) :
    Metering (step crypto r c) := by
  have hcharges : Charges r.egress.broker (call crypto r.egress c).1.broker
      (call crypto r.egress c).2.charge := charges_call r.egress c
  have hlog : ∀ i, grantsTo i (Egress.step crypto r c).log
      = grantsTo i r.log ++ (grantTo i (call crypto r.egress c).2.charge).toList := by
    intro i
    show grantsTo i (r.log ++ [(call crypto r.egress c).2]) = _
    rw [grantsTo_append, grantsTo_cons]
    exact congrArg _ (List.append_nil _)
  refine ⟨fun i k' hk' => ?_, fun i hnone => ?_⟩
  · rw [hlog]
    rcases hk : r.egress.broker.keys[i]? with _ | k
    · rw [hcharges.fresh i k' hk hk', h.absent i hk, hcharges.absent i hk]
      exact ⟨.nil, fun _ => rfl⟩
    · obtain ⟨k₁, hk₁, hpub, hmeters⟩ := hcharges.kept i k hk
      obtain rfl := Option.some.inj (hk₁.symm.trans hk')
      rw [hpub]
      exact hmeters _ (h.meters i k hk)
  · rw [hlog]
    rcases hk : r.egress.broker.keys[i]? with _ | k
    · rw [h.absent i hk, hcharges.absent i hk]
      rfl
    · obtain ⟨k₁, hk₁, -⟩ := hcharges.kept i k hk
      exact nomatch hnone.symm.trans hk₁

theorem metering (crypto : EnclaveCrypto) (o : σ) (v : ν) (p : π) (cs : List (Call σ ν π ρ)) :
    Metering (after crypto o v p cs) :=
  run_inv (I := Metering) (P := fun _ => True) (fun _ c _ h => h.step c) cs _ (fun _ _ => trivial)
    ⟨fun i k hk => by simp [KeyBroker.new] at hk, fun _ _ => rfl⟩

theorem invokedAmount_le {i : ℕ} : ∀ {log : List Entry}, (∀ g ∈ grantsTo i log, 0 < g.amount) →
    invokedAmount i log ≤ granted (grantsTo i log)
  | [], _ => le_rfl
  | e :: log, h => by
    rw [grantsTo_cons, List.forall_mem_append] at h
    have ih := invokedAmount_le h.2
    rw [grantsTo_cons, granted_append]
    show e.invokedAmount i + invokedAmount i log ≤ _
    unfold Entry.invokedAmount
    rcases hg : grantTo i e.charge with _ | g
    · simpa using ih
    · have hpos : 0 < g.amount := h.1 g (by simp [hg])
      simp only [Option.elim_some, Option.toList_some, granted_cons, granted_nil]
      split_ifs <;> omega

/-- What stands between two rolls of a window has been charged within its limit. -/
theorem invokedAmount_window_le {o : σ} {v : ν} {p : π} {cs : List (Call σ ν π ρ)} {i : ℕ}
    {pre seg post : List Entry} {e : Entry} (he : e.Rolls i) (hseg : ∀ e' ∈ seg, ¬e'.Rolls i)
    (hlog : (after crypto o v p cs).log = pre ++ e :: seg ++ post) :
    ∃ k, (after crypto o v p cs).egress.broker.keys[i]? = some k
      ∧ invokedAmount i (e :: seg) ≤ k.pub.envelope.perWindow := by
  have hmetering := metering crypto o v p cs
  obtain ⟨g, hg, -⟩ := he
  have hgrants : grantsTo i (after crypto o v p cs).log
      = grantsTo i pre ++ g :: grantsTo i seg ++ grantsTo i post := by
    rw [hlog, grantsTo_append, grantsTo_append, grantsTo_cons, hg]
    rfl
  rcases hk : (after crypto o v p cs).egress.broker.keys[i]? with _ | k
  · have hnil := hmetering.absent i hk
    simp [hgrants] at hnil
  refine ⟨k, rfl, ?_⟩
  have hmeters := (hmetering.meters i k hk).grants
  rw [hgrants] at hmeters
  have hpos := hmeters.amount_pos
  have hle : granted (g :: grantsTo i seg) ≤ k.pub.envelope.perWindow := by
    refine hmeters.granted_window_le fun g' hg' => ?_
    obtain ⟨e', he', hgrant⟩ := List.mem_filterMap.mp hg'
    by_contra hopens
    exact hseg e' he' ⟨g', hgrant, by simpa using hopens⟩
  have hwindow : grantsTo i (e :: seg) = g :: grantsTo i seg := by
    rw [grantsTo_cons, hg]
    rfl
  rw [← hwindow] at hle
  refine (invokedAmount_le fun g' hg' => hpos g' ?_).trans hle
  rw [hwindow] at hg'
  exact List.mem_append_left _ (List.mem_append_right _ hg')

/-- The egress law of a run. The entries between two rolls of a key's window are those from one that
rolls it up to the next that does. -/
structure MediatedRun (crypto : EnclaveCrypto) (o : σ) (v : ν) (p : π)
    (cs : List (Call σ ν π ρ)) : Prop where
  invoked : ∀ pre c post, cs = pre ++ c :: post →
    let s := (after crypto o v p pre).egress
    ∀ scope payload, .invoked scope payload ∈ (call crypto s c).2.effects →
      ∃ agent req reads, c = .act agent req reads
        ∧ Mediated crypto s agent req reads scope payload
  quiet : ∀ pre c post, cs = pre ++ c :: post →
    let s := (after crypto o v p pre).egress
    (call crypto s c).2.effects = [] → (call crypto s c).1.provider = s.provider
  denied : ∀ pre agent req reads post, cs = pre ++ .act agent req reads :: post →
    let s := (after crypto o v p pre).egress
    (s.broker.authorize crypto.sha256 reads.ask s.oracle (agent.authorization req)
        reads.now).1.allowed = false →
      (call crypto s (.act agent req reads)).2.effects = []
      ∧ (call crypto s (.act agent req reads)).1.vault = s.vault
      ∧ (call crypto s (.act agent req reads)).1.provider = s.provider
      ∧ ∃ reason, (sandboxedAgentAct crypto agent s req reads).1
        = .ok ⟨false, reason, none, none, none, none⟩
  window : ∀ (i : ℕ) (pre : List Entry) (e : Entry) (seg post : List Entry),
    (after crypto o v p cs).log = pre ++ e :: seg ++ post → e.Rolls i →
    (∀ e' ∈ seg, ¬e'.Rolls i) →
      ∃ k, (after crypto o v p cs).egress.broker.keys[i]? = some k
        ∧ invokedAmount i (e :: seg) ≤ k.pub.envelope.perWindow

theorem sandboxedAgentEffect_quiet {agent : SandboxedAgent ν π ρ} {s : Egress σ ν π}
    {req : AgentActionRequest} {sealReads : SealReads}
    (h : (sandboxedAgentEffect crypto agent s req sealReads).2.2 = []) :
    (sandboxedAgentEffect crypto agent s req sealReads).2.1.provider = s.provider := by
  unfold sandboxedAgentEffect at h ⊢
  rcases hseal : privateEnclaveSealAction crypto agent.ensureKey s.vault agent.identityId
    req.payload req.provenance sealReads with ⟨e | action, vault⟩
  · rfl
  · simp only [hseal] at h
    rcases hinvoke : agent.invoke s.provider req.scope (req.payload.getD []) with ⟨e | r, provider⟩
    all_goals simp [hinvoke] at h

theorem call_quiet {s : Egress σ ν π} {c : Call σ ν π ρ}
    (h : (call crypto s c).2.effects = []) : (call crypto s c).1.provider = s.provider := by
  cases c with
  | broker c => rfl
  | issueFromChain ask args view rand now => rfl
  | act agent req reads =>
    rw [call_act] at h ⊢
    by_cases hallowed : (s.broker.authorize crypto.sha256 reads.ask s.oracle
      (agent.authorization req) reads.now).1.allowed = true
    · rw [sandboxedAgentAct_of_allowed hallowed] at h ⊢
      exact sandboxedAgentEffect_quiet h
    · rw [sandboxedAgentAct_of_denied (by simpa using hallowed)]
      rfl

/-- Every run of agents and other callers on one broker obeys the egress law. -/
theorem mediatedRun (crypto : EnclaveCrypto) (o : σ) (v : ν) (p : π) (cs : List (Call σ ν π ρ)) :
    MediatedRun crypto o v p cs where
  invoked _ _ _ _ _ _ h := call_invoked h
  quiet _ _ _ _ h := call_quiet h
  denied pre agent req reads post _ h := by
    have hact := sandboxedAgentAct_of_denied h
    rw [call_act, hact]
    exact ⟨rfl, rfl, rfl, _, rfl⟩
  window _ _ _ _ _ hlog he hseg := invokedAmount_window_le he hseg hlog

end Run

end Egress

end BonsaiChain
