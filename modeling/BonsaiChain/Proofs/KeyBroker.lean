import BonsaiChain.KeyBroker
import BonsaiChain.Lib.Runs

/-!
# Every run of the key broker is safe

A call changes at most the key it addresses, never un-latches one, and never changes what a key was
issued with. An authorization is allowed only past every check, and a latched key fails the first
of them, so a key that was once revoked is denied for good.
-/

namespace BonsaiChain

open Lib

section Charge

open WindowAccountant

theorem charge_allowed {env : AuthorizationEnvelope} {acc : WindowAccountant} {amount now : Int}
    (h : (acc.charge env amount now).1.allowed = true) :
    0 < amount ∧ amount ≤ env.perCall
      ∧ (acc.charge env amount now).2.spentInWindow ≤ env.perWindow := by
  unfold charge deny at *
  simp only [] at *
  split_ifs at * with h1 h2 h3
  refine ⟨by omega, by omega, ?_⟩
  show (acc.rolled env now).2 + amount ≤ env.perWindow
  omega

theorem charge_denied {env : AuthorizationEnvelope} {acc : WindowAccountant} {amount now : Int}
    (h : (acc.charge env amount now).1.allowed = false) :
    (acc.charge env amount now).2 = acc := by
  unfold charge at *
  simp only [] at *
  split_ifs at * <;> simp_all

end Charge

namespace KeyBroker

variable {σ : Type} {sha256 : Bytes → Bytes}

section Outcome

/-- The ways an authorization can go, each with its decision and the broker and oracle after it. -/
inductive Outcome (sha256 : Bytes → Bytes) (ask : Ask σ) (b : KeyBroker) (o : σ)
    (req : AuthorizationRequest) (now : Int) : AuthorizationDecision × KeyBroker × σ → Prop
  | unknown {d : AuthorizationDecision} (h : b.lookupBySecret sha256 req.secret = none)
      (hd : d.allowed = false) : Outcome sha256 ask b o req now (d, b, o)
  | latched {d : AuthorizationDecision} {i : ℕ} {k : StoredKey}
      (h : b.lookupBySecret sha256 req.secret = some (i, k)) (hk : k.revokedLocally = true)
      (hd : d.allowed = false) : Outcome sha256 ask b o req now (d, b, o)
  | refused {d : AuthorizationDecision} {i : ℕ} {k : StoredKey} {a : Except Err Bool} {o' : σ}
      (h : b.lookupBySecret sha256 req.secret = some (i, k)) (hk : k.revokedLocally = false)
      (ha : ask o k.pub.identityId = (a, o')) (hne : a ≠ .ok true) (hd : d.allowed = false) :
      Outcome sha256 ask b o req now (d, b, o')
  | revoked {d : AuthorizationDecision} {i : ℕ} {k : StoredKey} {o' : σ}
      (h : b.lookupBySecret sha256 req.secret = some (i, k)) (hk : k.revokedLocally = false)
      (ha : ask o k.pub.identityId = (.ok true, o')) (hd : d.allowed = false) :
      Outcome sha256 ask b o req now (d, b.setKey i { k with revokedLocally := true }, o')
  | metered {d : AuthorizationDecision} {i : ℕ} {k : StoredKey} {o' : σ} {scope : CString}
      (h : b.lookupBySecret sha256 req.secret = some (i, k)) (hk : k.revokedLocally = false)
      (ha : ask o k.pub.identityId = (.ok false, o')) (hs : req.scope = some scope)
      (hmem : scope ∈ k.pub.envelope.scopes)
      (hd : d.allowed = (k.accountant.charge k.pub.envelope req.amount now).1.allowed) :
      Outcome sha256 ask b o req now (d, b.setKey i
        { k with accountant := (k.accountant.charge k.pub.envelope req.amount now).2 }, o')

theorem authorize_outcome (sha256 : Bytes → Bytes) (ask : Ask σ) (b : KeyBroker) (o : σ)
    (req : AuthorizationRequest) (now : Int) :
    Outcome sha256 ask b o req now (b.authorize sha256 ask o req now) := by
  unfold authorize
  rcases hl : b.lookupBySecret sha256 req.secret with _ | ⟨i, k⟩
  · exact .unknown hl rfl
  simp only []
  by_cases hk : k.revokedLocally = true
  · rw [if_pos hk]
    exact .latched hl hk rfl
  rw [if_neg hk]
  have hk' : k.revokedLocally = false := by simpa using hk
  rcases ha : ask o k.pub.identityId with ⟨e | _ | _, o'⟩ <;> simp only []
  · exact .refused hl hk' ha (by simp) rfl
  · rcases hs : req.scope with _ | scope
    · exact .refused hl hk' ha (by simp) rfl
    by_cases hmem : scope ∈ k.pub.envelope.scopes
    · rw [if_neg (by simpa using hmem)]
      exact .metered hl hk' ha hs hmem rfl
    · rw [if_pos (by simpa using hmem)]
      exact .refused hl hk' ha (by simp) rfl
  · exact .revoked hl hk' ha rfl

theorem lookupBySecret_eq_some {b : KeyBroker} {secret : Option CString} {i : ℕ} {k : StoredKey}
    (h : b.lookupBySecret sha256 secret = some (i, k)) :
    b.keys[i]? = some k ∧ ∃ s, secret = some s ∧ k.secretHash = sha256 s := by
  unfold lookupBySecret at h
  simp only [Option.bind_eq_some_iff] at h
  obtain ⟨s, rfl, j, -, k', hk', h⟩ := h
  split_ifs at h with hhash
  obtain ⟨rfl, rfl⟩ : j = i ∧ k' = k := by simpa using h
  exact ⟨hk', s, rfl, hhash⟩

theorem setKey_keys {b : KeyBroker} {i j : ℕ} {k k' : StoredKey} (hk : b.keys[i]? = some k) :
    (b.setKey i k').keys[j]? = if j = i then some k' else b.keys[j]? := by
  unfold setKey
  obtain ⟨hi, -⟩ := List.getElem?_eq_some_iff.mp hk
  rw [List.getElem?_set]
  split_ifs <;> first | rfl | omega

end Outcome

section Calls

/-- A call on the broker, with what it reads: the oracle's answers, the clock, the random source. -/
inductive Call (σ : Type) where
  | issue (args : IssueArgs) (rand : IssueRandom) (now : Int)
  | authorize (ask : Ask σ) (req : AuthorizationRequest) (now : Int)
  | revokeLocally (keyId : Option CString)
  | getKey (keyId : Option CString)

/-- The broker and the oracle after a call. -/
def step (sha256 : Bytes → Bytes) : KeyBroker × σ → Call σ → KeyBroker × σ
  | (b, o), .issue args rand now => ((b.issue sha256 args rand now).2, o)
  | (b, o), .authorize ask req now => (b.authorize sha256 ask o req now).2
  | (b, o), .revokeLocally keyId => ((b.revokeLocally keyId).2, o)
  | (b, o), .getKey _ => (b, o)

/-- The position of the key a call is about. -/
def addressed (sha256 : Bytes → Bytes) (b : KeyBroker) : Call σ → Option ℕ
  | .issue .. => none
  | .authorize _ req _ => (b.lookupBySecret sha256 req.secret).map Prod.fst
  | .revokeLocally keyId => b.findByKeyId keyId
  | .getKey keyId => b.findByKeyId keyId

/-- What a call may change of a stored key. -/
structure Evolves (k k' : StoredKey) : Prop where
  pub : k'.pub = k.pub
  secretHash : k'.secretHash = k.secretHash
  latch : k.revokedLocally = true → k'.revokedLocally = true

/-- Every key is still there, and no latch was opened. -/
def Extends (s s' : KeyBroker × σ) : Prop :=
  ∀ (i : ℕ) (k : StoredKey), s.1.keys[i]? = some k → ∃ k', s'.1.keys[i]? = some k' ∧ Evolves k k'

theorem Evolves.refl (k : StoredKey) : Evolves k k := ⟨rfl, rfl, id⟩

theorem extends_refl (s : KeyBroker × σ) : Extends s s := fun _ k h => ⟨k, h, .refl k⟩

theorem extends_trans (s s' s'' : KeyBroker × σ) (h : Extends s s') (h' : Extends s' s'') :
    Extends s s'' := by
  intro i k hk
  obtain ⟨k', hk', h1⟩ := h i k hk
  obtain ⟨k'', hk'', h2⟩ := h' i k' hk'
  exact ⟨k'', hk'', h2.pub.trans h1.pub, h2.secretHash.trans h1.secretHash,
    fun hl => h2.latch (h1.latch hl)⟩

/-- A call leaves every key alone but the one it addresses. -/
theorem step_frame (s : KeyBroker × σ) (e : Call σ) {j : ℕ} {k : StoredKey}
    (hj : addressed sha256 s.1 e ≠ some j) (hk : s.1.keys[j]? = some k) :
    (step sha256 s e).1.keys[j]? = some k := by
  obtain ⟨b, o⟩ := s
  cases e with
  | issue args rand now =>
    show (b.issue sha256 args rand now).2.keys[j]? = some k
    unfold issue
    split <;> try exact hk
    obtain ⟨hlt, -⟩ := List.getElem?_eq_some_iff.mp hk
    show (b.keys ++ _)[j]? = some k
    rw [List.getElem?_append_left hlt]
    exact hk
  | authorize ask req now =>
    show (b.authorize sha256 ask o req now).2.1.keys[j]? = some k
    have hout := authorize_outcome sha256 ask b o req now
    generalize b.authorize sha256 ask o req now = r at hout
    cases hout with
    | unknown | latched | refused => exact hk
    | revoked h | metered h =>
      rw [setKey_keys (lookupBySecret_eq_some h).1, if_neg, hk]
      rintro rfl
      exact hj (by simp [addressed, h])
  | revokeLocally keyId =>
    show (b.revokeLocally keyId).2.keys[j]? = some k
    unfold revokeLocally
    rcases hf : b.findByKeyId keyId with _ | i
    · exact hk
    · have hne : i ≠ j := fun h => hj (by simp [addressed, hf, h])
      show (b.keys.modify i _)[j]? = some k
      rw [List.getElem?_modify_ne _ _ hne]
      exact hk
  | getKey keyId => exact hk

theorem step_extends (sha256 : Bytes → Bytes) (s : KeyBroker × σ) (e : Call σ) :
    Extends s (step sha256 s e) := by
  intro j k hk
  by_cases hj : addressed sha256 s.1 e = some j
  · obtain ⟨b, o⟩ := s
    cases e with
    | issue => simp [addressed] at hj
    | getKey => exact ⟨k, hk, .refl k⟩
    | authorize ask req now =>
      show ∃ k', (b.authorize sha256 ask o req now).2.1.keys[j]? = some k' ∧ Evolves k k'
      have hout := authorize_outcome sha256 ask b o req now
      generalize b.authorize sha256 ask o req now = r at hout
      cases hout with
      | unknown | latched | refused => exact ⟨k, hk, .refl k⟩
      | revoked h | metered h =>
        obtain rfl : _ = j := by simpa [addressed, h] using hj
        have hk' := (lookupBySecret_eq_some h).1
        obtain rfl := Option.some.inj (hk'.symm.trans hk)
        rw [setKey_keys hk', if_pos rfl]
        exact ⟨_, rfl, rfl, rfl, by simp⟩
    | revokeLocally keyId =>
      have hf : b.findByKeyId keyId = some j := hj
      show ∃ k', (b.revokeLocally keyId).2.keys[j]? = some k' ∧ Evolves k k'
      unfold revokeLocally
      rw [hf]
      show ∃ k', (b.keys.modify j _)[j]? = some k' ∧ Evolves k k'
      rw [List.getElem?_modify_eq, hk]
      exact ⟨_, rfl, rfl, rfl, fun _ => rfl⟩
  · exact ⟨k, step_frame s e hj hk, .refl k⟩

theorem run_extends (sha256 : Bytes → Bytes) (s : KeyBroker × σ) (es : List (Call σ)) :
    Extends s (run (step sha256) s es) :=
  run_rel extends_refl extends_trans (step_extends sha256) es s

end Calls

section Run

/-- The broker and the oracle after a run from an empty broker. -/
def after (sha256 : Bytes → Bytes) (o : σ) (es : List (Call σ)) : KeyBroker × σ :=
  run (step sha256) (new, o) es

/-- The key at position `i` is not latched in any state of the run. -/
def NeverLatched (sha256 : Bytes → Bytes) (o : σ) (es : List (Call σ)) (i : ℕ) : Prop :=
  ∀ pre post, es = pre ++ post → ∀ k, (after sha256 o pre).1.keys[i]? = some k →
    k.revokedLocally = false

/-- The call sees the identity of the key at position `i` revoked, or revokes the key. -/
def Kills (sha256 : Bytes → Bytes) (s : KeyBroker × σ) (i : ℕ) : Call σ → Prop
  | .authorize ask req _ => ∃ k, s.1.lookupBySecret sha256 req.secret = some (i, k)
      ∧ (ask s.2 k.pub.identityId).1 = .ok true
  | .revokeLocally keyId => s.1.findByKeyId keyId = some i
  | _ => False

/-- What an allowed authorization on the key at position `i` went past, and what it leaves in the
window. -/
structure Allowed (sha256 : Bytes → Bytes) (s : KeyBroker × σ) (ask : Ask σ)
    (req : AuthorizationRequest) (now : Int) (i : ℕ) (k : StoredKey) : Prop where
  addressed : s.1.lookupBySecret sha256 req.secret = some (i, k)
  secret : ∃ secret, req.secret = some secret ∧ sha256 secret = k.secretHash
  live : (ask s.2 k.pub.identityId).1 = .ok false
  scope : ∃ scope, req.scope = some scope ∧ scope ∈ k.pub.envelope.scopes
  perCall : 0 < req.amount ∧ req.amount ≤ k.pub.envelope.perCall
  perWindow : ∃ k', (s.1.authorize sha256 ask s.2 req now).2.1.keys[i]? = some k'
    ∧ k'.accountant.spentInWindow ≤ k.pub.envelope.perWindow

/-- The authorization law of a run. -/
structure SafeRun (sha256 : Bytes → Bytes) (o : σ) (es : List (Call σ)) : Prop where
  allowed : ∀ pre ask req now post, es = pre ++ .authorize ask req now :: post →
    let s := after sha256 o pre
    (s.1.authorize sha256 ask s.2 req now).1.allowed = true →
      ∃ i k, Allowed sha256 s ask req now i k ∧ NeverLatched sha256 o pre i
  killed : ∀ pre e mid ask req now post i k,
    es = pre ++ e :: mid ++ .authorize ask req now :: post → Kills sha256 (after sha256 o pre) i e →
    let s := after sha256 o (pre ++ e :: mid)
    s.1.lookupBySecret sha256 req.secret = some (i, k) →
      (s.1.authorize sha256 ask s.2 req now).1.allowed = false
  denied : ∀ pre ask req now post, es = pre ++ .authorize ask req now :: post →
    let s := after sha256 o pre
    (s.1.authorize sha256 ask s.2 req now).1.allowed = false →
      ∀ (i : ℕ) (k : StoredKey), s.1.keys[i]? = some k →
        ∃ k', (s.1.authorize sha256 ask s.2 req now).2.1.keys[i]? = some k'
          ∧ k'.accountant = k.accountant
  frame : ∀ pre e post, es = pre ++ e :: post →
    let s := after sha256 o pre
    ∀ (j : ℕ) (k : StoredKey), addressed sha256 s.1 e ≠ some j → s.1.keys[j]? = some k →
      (step sha256 s e).1.keys[j]? = some k

variable {o : σ} {es pre post : List (Call σ)} {s : KeyBroker × σ} {ask : Ask σ}
  {req : AuthorizationRequest} {now : Int} {i : ℕ} {k : StoredKey}

/-- A key that is not latched was not latched earlier. -/
theorem neverLatched_of_end (hk : (after sha256 o es).1.keys[i]? = some k)
    (hl : k.revokedLocally = false) : NeverLatched sha256 o es i := by
  intro pre post hes k₀ hk₀
  have hext := run_extends sha256 (after sha256 o pre) post
  have hrun : run (step sha256) (after sha256 o pre) post = after sha256 o es := by
    rw [after, after, ← run_append, hes]
  rw [hrun] at hext
  obtain ⟨k', hk', hev⟩ := hext i k₀ hk₀
  obtain rfl := Option.some.inj (hk'.symm.trans hk)
  by_contra hne
  rw [hev.latch (by simpa using hne)] at hl
  cases hl

/-- A call that kills a key leaves it latched. -/
theorem kills_latches {e : Call σ} (h : Kills sha256 s i e) :
    ∀ k', (step sha256 s e).1.keys[i]? = some k' → k'.revokedLocally = true := by
  obtain ⟨b, o⟩ := s
  intro k' hk'
  cases e with
  | issue | getKey => exact h.elim
  | authorize ask req now =>
    obtain ⟨k, hl, ha⟩ := h
    have hk := (lookupBySecret_eq_some hl).1
    have hout := authorize_outcome sha256 ask b o req now
    change (b.authorize sha256 ask o req now).2.1.keys[i]? = some k' at hk'
    generalize b.authorize sha256 ask o req now = r at hout hk'
    cases hout with
    | unknown hl' => simp [hl] at hl'
    | latched hl' hlatch =>
      obtain ⟨rfl, rfl⟩ : i = _ ∧ k = _ := by simpa [hl] using hl'
      obtain rfl := Option.some.inj (hk.symm.trans hk')
      exact hlatch
    | refused hl' _ ha' hne =>
      obtain ⟨rfl, rfl⟩ : i = _ ∧ k = _ := by simpa [hl] using hl'
      exact absurd (by simpa [ha'] using ha) hne
    | revoked hl' =>
      obtain ⟨rfl, rfl⟩ : i = _ ∧ k = _ := by simpa [hl] using hl'
      rw [setKey_keys hk, if_pos rfl] at hk'
      obtain rfl := Option.some.inj hk'
      rfl
    | metered hl' _ ha' =>
      obtain ⟨rfl, rfl⟩ : i = _ ∧ k = _ := by simpa [hl] using hl'
      simp [ha'] at ha
  | revokeLocally keyId =>
    have hf : b.findByKeyId keyId = some i := h
    change (b.revokeLocally keyId).2.keys[i]? = some k' at hk'
    unfold revokeLocally at hk'
    rw [hf] at hk'
    change (b.keys.modify i _)[i]? = some k' at hk'
    simp only [List.getElem?_modify_eq, Option.map_eq_map, Option.map_eq_some_iff] at hk'
    obtain ⟨k, -, rfl⟩ := hk'
    rfl

/-- Wherever a killed key is found later, it is latched. -/
theorem killed_latched {e : Call σ} (h : Kills sha256 s i e) (mid : List (Call σ))
    (hk : (run (step sha256) (step sha256 s e) mid).1.keys[i]? = some k) :
    k.revokedLocally = true := by
  have hlt : ∃ k₀, (step sha256 s e).1.keys[i]? = some k₀ := by
    have hbefore : ∃ k₀, s.1.keys[i]? = some k₀ := by
      cases e with
      | issue | getKey => exact h.elim
      | authorize ask req now =>
        obtain ⟨k, hl, -⟩ := h
        exact ⟨k, (lookupBySecret_eq_some hl).1⟩
      | revokeLocally keyId =>
        have hf : s.1.findByKeyId keyId = some i := h
        obtain ⟨id, -, hf⟩ := Option.bind_eq_some_iff.mp hf
        obtain ⟨hlt, -⟩ := List.findIdx?_eq_some_iff_getElem.mp hf
        exact ⟨_, List.getElem?_eq_getElem hlt⟩
    obtain ⟨k₀, hk₀⟩ := hbefore
    obtain ⟨k₁, hk₁, -⟩ := step_extends sha256 s e i k₀ hk₀
    exact ⟨k₁, hk₁⟩
  obtain ⟨k₀, hk₀⟩ := hlt
  obtain ⟨k₁, hk₁, hev⟩ := run_extends sha256 _ mid i k₀ hk₀
  obtain rfl := Option.some.inj (hk₁.symm.trans hk)
  exact hev.latch (kills_latches h k₀ hk₀)

theorem authorize_allowed (h : (s.1.authorize sha256 ask s.2 req now).1.allowed = true) :
    ∃ i k, Allowed sha256 s ask req now i k ∧ k.revokedLocally = false := by
  have hout := authorize_outcome sha256 ask s.1 s.2 req now
  generalize hr : s.1.authorize sha256 ask s.2 req now = r at hout h
  cases hout with
  | unknown _ hd | latched _ _ hd | refused _ _ _ _ hd | revoked _ _ _ hd => simp [hd] at h
  | @metered d i k o' scope hl hk ha hs hmem hd =>
    obtain ⟨hki, secret, hsec, hhash⟩ := lookupBySecret_eq_some hl
    obtain ⟨h1, h2, h3⟩ := charge_allowed (hd.symm.trans h)
    refine ⟨i, k, ⟨hl, ⟨secret, hsec, hhash.symm⟩, by rw [ha], ⟨scope, hs, hmem⟩, ⟨h1, h2⟩, ?_⟩, hk⟩
    rw [hr]
    exact ⟨_, by rw [setKey_keys hki, if_pos rfl], h3⟩

theorem authorize_latched (hl : s.1.lookupBySecret sha256 req.secret = some (i, k))
    (hk : k.revokedLocally = true) : (s.1.authorize sha256 ask s.2 req now).1.allowed = false := by
  by_contra hne
  obtain ⟨j, k', hall, hk'⟩ := authorize_allowed (by simpa using hne)
  obtain ⟨rfl, rfl⟩ : i = j ∧ k = k' := by simpa [hl] using hall.addressed
  rw [hk] at hk'
  cases hk'

theorem authorize_denied (h : (s.1.authorize sha256 ask s.2 req now).1.allowed = false)
    (hk : s.1.keys[i]? = some k) :
    ∃ k', (s.1.authorize sha256 ask s.2 req now).2.1.keys[i]? = some k'
      ∧ k'.accountant = k.accountant := by
  have hout := authorize_outcome sha256 ask s.1 s.2 req now
  generalize s.1.authorize sha256 ask s.2 req now = r at hout h
  cases hout with
  | unknown | latched | refused => exact ⟨k, hk, rfl⟩
  | @revoked d j k₀ _ hl =>
    rw [setKey_keys (lookupBySecret_eq_some hl).1]
    split_ifs with hij
    · subst hij
      obtain rfl := Option.some.inj ((lookupBySecret_eq_some hl).1.symm.trans hk)
      exact ⟨_, rfl, rfl⟩
    · exact ⟨k, hk, rfl⟩
  | @metered d j k₀ _ _ hl _ _ _ _ hd =>
    rw [setKey_keys (lookupBySecret_eq_some hl).1]
    split_ifs with hij
    · subst hij
      obtain rfl := Option.some.inj ((lookupBySecret_eq_some hl).1.symm.trans hk)
      exact ⟨_, rfl, charge_denied (hd.symm.trans h)⟩
    · exact ⟨k, hk, rfl⟩

/-- Every run of the broker obeys the authorization law. -/
theorem safeRun (sha256 : Bytes → Bytes) (o : σ) (es : List (Call σ)) : SafeRun sha256 o es := by
  refine ⟨?_, ?_, ?_, ?_⟩
  · intro pre ask req now post _ s h
    obtain ⟨i, k, hall, hk⟩ := authorize_allowed h
    exact ⟨i, k, hall, neverLatched_of_end (lookupBySecret_eq_some hall.addressed).1 hk⟩
  · intro pre e mid ask req now post i k _ hkill s hl
    have hs : s = run (step sha256) (step sha256 (after sha256 o pre) e) mid := by
      show after sha256 o (pre ++ e :: mid) = _
      rw [after, run_append, run_cons]
      rfl
    have hk := (lookupBySecret_eq_some hl).1
    rw [hs] at hk
    exact authorize_latched hl (killed_latched hkill mid hk)
  · intro pre ask req now post _ s h i k hk
    exact authorize_denied h hk
  · intro pre e post _ s j k hj hk
    exact step_frame s e hj hk

end Run

end KeyBroker

end BonsaiChain
