import BonsaiChain.KeyVault
import BonsaiChain.Proofs.PrivateEnclave
import Mathlib.Data.List.Induction

/-!
# A shredded identity stays unreadable

Every key in the vault was minted once. A key that was taken out of it is in no later state, so a
record sealed under it opens no more, even when its identity has a key again, and its action hash is
never recomputed. An identity that is not shredded keeps its key.
-/

namespace BonsaiChain

open Lib

section Ideal

/-- The cipher opens what it sealed, and only with the key, the initialization vector and the
associated data it was sealed with. -/
structure IdealAead (crypto : EnclaveAead) : Prop where
  opens : ∀ {key iv plaintext aad ciphertext tag},
    crypto.aes256gcmSeal key iv plaintext aad = .ok (ciphertext, tag) →
      crypto.aes256gcmOpen key iv ciphertext aad tag = .ok plaintext
  only : ∀ {key iv plaintext aad ciphertext tag key' iv' aad' plaintext'},
    crypto.aes256gcmSeal key iv plaintext aad = .ok (ciphertext, tag) →
      crypto.aes256gcmOpen key' iv' ciphertext aad' tag = .ok plaintext' →
        key' = key ∧ iv' = iv ∧ aad' = aad

/-- No two answers of the random source are the same key. -/
def FreshKeys (rand : ℕ → Option (Block 32)) : Prop :=
  ∀ i j key, rand i = some key → rand j = some key → i = j

def actionPreimage (key : Block 32) (payload : Bytes) : Bytes :=
  priscillaActionDomain ++ key.val ++ payload

/-- The hash tells the preimages of action commitments apart. -/
def CommitsToActions (sha256 : Bytes → Bytes) : Prop :=
  Set.InjOn sha256 {pre | ∃ key payload, pre = actionPreimage key payload}

theorem actionCommitment_eq_ok {crypto : EnclaveCrypto} {key : Block 32} {payload : Bytes}
    {hash : CString} (h : actionCommitment crypto key payload = .ok hash) :
    hash = hexEncode (crypto.sha256 (actionPreimage key payload)) := by
  simp only [actionCommitment, bind_eq_ok, pure_eq_ok] at h
  obtain ⟨pre, hpre, pre', hpre', pre'', hpre'', rfl⟩ := h
  obtain rfl := byteBufAppend_eq_ok hpre
  obtain rfl := byteBufAppend_eq_ok hpre'
  obtain rfl := byteBufAppend_eq_ok hpre''
  simp [actionPreimage]

theorem actionPreimage_key {key key' : Block 32} {payload payload' : Bytes}
    (h : actionPreimage key payload = actionPreimage key' payload') : key = key' := by
  unfold actionPreimage at h
  simp only [List.append_assoc, List.append_cancel_left_eq] at h
  exact Subtype.ext (List.append_inj_left h (key.2.trans key'.2.symm))

/-- One action hash is of one key only. -/
theorem actionCommitment_key {crypto : EnclaveCrypto} (hhash : CommitsToActions crypto.sha256)
    {key key' : Block 32} {payload payload' : Bytes} {hash : CString}
    (h : actionCommitment crypto key payload = .ok hash)
    (h' : actionCommitment crypto key' payload' = .ok hash) : key = key' := by
  have heq := hexEncode_inj
    ((actionCommitment_eq_ok h).symm.trans (actionCommitment_eq_ok h'))
  exact actionPreimage_key (hhash ⟨key, payload, rfl⟩ ⟨key', payload', rfl⟩ heq)

end Ideal

section Vault

variable {rand : ℕ → Option (Block 32)} {v v' : KvState} {identityId : CString} {key : Block 32}

theorem kvFind_mem (h : kvFind v identityId = some key) : (identityId, key) ∈ v.entries := by
  unfold kvFind at h
  rcases hfind : v.entries.find? (·.1 == identityId) with _ | ⟨i, k⟩
  · simp [hfind] at h
  have hid := List.find?_some hfind
  simp only [hfind, Option.map_some, Option.some.injEq] at h
  simp only [beq_iff_eq] at hid
  subst h hid
  exact List.mem_of_find?_eq_some hfind

theorem kvFind_none : kvFind v identityId = none ↔ ∀ e ∈ v.entries, e.1 ≠ identityId := by
  simp [kvFind]

/-- What `kv_ensure_key` can do: find the key, fail to draw one, or mint it. -/
theorem kvEnsureKey_cases (rand : ℕ → Option (Block 32)) (v : KvState) (identityId : CString) :
    (∃ key, kvFind v identityId = some key ∧ kvEnsureKey rand v identityId = (.ok key, v))
      ∨ (kvFind v identityId = none ∧ rand v.drawn = none
        ∧ kvEnsureKey rand v identityId = (.error .ecrypto, ⟨v.entries, v.drawn + 1⟩))
      ∨ ∃ key, kvFind v identityId = none ∧ rand v.drawn = some key
        ∧ kvEnsureKey rand v identityId
          = (.ok key, ⟨(identityId, key) :: v.entries, v.drawn + 1⟩) := by
  unfold kvEnsureKey
  rcases hfind : kvFind v identityId with _ | key
  · rcases hrand : rand v.drawn with _ | key
    · exact .inr (.inl ⟨rfl, rfl, rfl⟩)
    · exact .inr (.inr ⟨key, rfl, rfl, rfl⟩)
  · exact .inl ⟨key, rfl, rfl⟩

/-- A key that was ensured is found. -/
theorem kvFind_ensured (h : kvEnsureKey rand v identityId = (.ok key, v')) :
    kvFind v' identityId = some key := by
  rcases kvEnsureKey_cases rand v identityId with
    ⟨k, hfind, heq⟩ | ⟨-, -, heq⟩ | ⟨k, -, -, heq⟩ <;> rw [heq] at h <;> cases h
  · exact hfind
  · simp [kvFind]

theorem kvEnsureKey_again (h : kvEnsureKey rand v identityId = (.ok key, v')) :
    kvEnsureKey rand v' identityId = (.ok key, v') := by
  have hfind := kvFind_ensured h
  unfold kvEnsureKey
  rw [hfind]

theorem kvFind_erase_ne {other : CString} (h : other ≠ identityId) :
    kvFind ⟨v.entries.eraseP (·.1 == identityId), v.drawn⟩ other = kvFind v other := by
  unfold kvFind
  congr 1
  induction v.entries with
  | nil => rfl
  | cons e es ih =>
    by_cases he : e.1 = identityId
    · have hne : identityId ≠ other := fun hc => h hc.symm
      simp [he, hne]
    · simp [he, List.find?_cons, ih]

/-- No key is found where the keys of an identity were taken out. -/
theorem kvFind_erase_self (h : (v.entries.map (·.1)).Nodup) :
    kvFind ⟨v.entries.eraseP (·.1 == identityId), v.drawn⟩ identityId = none := by
  rw [kvFind_none]
  obtain ⟨entries, _⟩ := v
  induction entries with
  | nil => simp
  | cons e es ih =>
    simp only [List.map_cons, List.nodup_cons, List.mem_map, not_exists, not_and] at h
    by_cases he : e.1 = identityId
    · intro e' he' hid
      simp only [he, BEq.rfl, List.eraseP_cons_of_pos] at he'
      exact h.1 e' he' (hid.trans he.symm)
    · intro e' he'
      have hmem : e' = e ∨ e' ∈ es.eraseP (·.1 == identityId) := by
        simpa [List.eraseP_cons, he] using he'
      rcases hmem with rfl | hmem
      · exact he
      · exact ih h.2 e' hmem

end Vault

section Calls

variable {crypto : EnclaveAead} {rand : ℕ → Option (Block 32)} {v : KvState}
  {identityId : CString} {key : Block 32}

theorem privateEnclaveSeal_snd (plaintext : Option Bytes) (reads : SealReads) :
    (privateEnclaveSeal crypto.toEnclaveCrypto (kvEnsureKey rand) v identityId plaintext reads).2
      = if plaintext.isSome then (kvEnsureKey rand v identityId).2 else v := by
  unfold privateEnclaveSeal
  rcases plaintext with _ | bytes
  · rfl
  rcases kvEnsureKey rand v identityId with ⟨_ | _, v'⟩ <;> rfl

/-- The second key of a sealed action is the first one. -/
theorem privateEnclaveSealAction_snd (payload : Option Bytes)
    (provenance : Option ProvenanceRecord) (reads : SealReads) :
    (privateEnclaveSealAction crypto.toEnclaveCrypto (kvEnsureKey rand) v identityId payload
        provenance reads).2
      = if payload.isSome then (kvEnsureKey rand v identityId).2 else v := by
  unfold privateEnclaveSealAction
  rcases payload with _ | bytes
  · rfl
  rcases hkey : kvEnsureKey rand v identityId with ⟨e | key, v'⟩
  · rfl
  simp only [Option.isSome_some, if_true]
  rcases actionCommitment crypto.toEnclaveCrypto key bytes with e | hash
  · rfl
  have hsnd : (privateEnclaveSeal crypto.toEnclaveCrypto (kvEnsureKey rand) v' identityId
      (some bytes) reads).2 = v' := by
    rw [privateEnclaveSeal_snd, kvEnsureKey_again hkey]
    rfl
  rcases hseal : privateEnclaveSeal crypto.toEnclaveCrypto (kvEnsureKey rand) v' identityId
    (some bytes) reads with ⟨_ | _, v''⟩ <;> rw [hseal] at hsnd <;> exact hsnd

/-- What a call can do to the vault: nothing but a failed draw, mint a key for an identity that had
none, or take out the entry of the identity it shreds. -/
theorem enclaveCall_cases (crypto : EnclaveAead) (rand : ℕ → Option (Block 32)) (v : KvState)
    (call : EnclaveCall) :
    ((enclaveCall crypto rand v call).entries = v.entries
        ∧ v.drawn ≤ (enclaveCall crypto rand v call).drawn)
      ∨ (∃ identityId key, kvFind v identityId = none ∧ rand v.drawn = some key
        ∧ enclaveCall crypto rand v call = ⟨(identityId, key) :: v.entries, v.drawn + 1⟩)
      ∨ ∃ identityId, call = .shred identityId
        ∧ enclaveCall crypto rand v call = ⟨v.entries.eraseP (·.1 == identityId), v.drawn⟩ := by
  have hensure (identityId : CString) (b : Bool) (v' : KvState)
      (hv' : v' = if b then (kvEnsureKey rand v identityId).2 else v) :
      (v'.entries = v.entries ∧ v.drawn ≤ v'.drawn)
        ∨ ∃ identityId key, kvFind v identityId = none ∧ rand v.drawn = some key
          ∧ v' = ⟨(identityId, key) :: v.entries, v.drawn + 1⟩ := by
    rcases b with _ | _
    · subst hv'
      exact .inl ⟨rfl, le_rfl⟩
    rcases kvEnsureKey_cases rand v identityId with
      ⟨key, -, heq⟩ | ⟨-, -, heq⟩ | ⟨key, hfind, hrand, heq⟩ <;>
      rw [if_pos rfl, heq] at hv' <;> subst hv'
    · exact .inl ⟨rfl, le_rfl⟩
    · exact .inl ⟨rfl, Nat.le_succ _⟩
    · exact .inr ⟨identityId, key, hfind, hrand, rfl⟩
  cases call with
  | sealRecord identityId plaintext reads =>
    exact (hensure identityId _ _ (privateEnclaveSeal_snd plaintext reads)).imp_right .inl
  | sealAction identityId payload provenance reads =>
    exact (hensure identityId _ _ (privateEnclaveSealAction_snd payload provenance reads)).imp_right
      .inl
  | openRecord record => exact .inl ⟨rfl, le_rfl⟩
  | recompute identityId payload => exact .inl ⟨rfl, le_rfl⟩
  | shred identityId =>
    simp only [enclaveCall, privateEnclaveShred, kvShred]
    rcases hfind : kvFind v identityId with _ | key
    · exact .inl ⟨rfl, le_rfl⟩
    · exact .inr (.inr ⟨identityId, rfl, rfl⟩)

end Calls

section Runs

/-- Every identity has one key, every key is of one identity and was minted once. -/
structure KvState.Minted (rand : ℕ → Option (Block 32)) (v : KvState) : Prop where
  ids : (v.entries.map (·.1)).Nodup
  keys : ∀ e ∈ v.entries, ∀ e' ∈ v.entries, e.2 = e'.2 → e.1 = e'.1
  minted : ∀ e ∈ v.entries, ∃ n < v.drawn, rand n = some e.2

/-- A key that was minted and is in the vault no more. -/
structure KvState.Gone (rand : ℕ → Option (Block 32)) (key : Block 32) (v : KvState) : Prop where
  minted : ∃ n < v.drawn, rand n = some key
  absent : ∀ e ∈ v.entries, e.2 ≠ key

variable {crypto : EnclaveAead} {rand : ℕ → Option (Block 32)} {v : KvState}
  {identityId : CString} {key : Block 32}

theorem FreshKeys.drawn_ne (hfresh : FreshKeys rand) {n : ℕ} {key key' : Block 32}
    (hn : ∃ i < n, rand i = some key) (hkey' : rand n = some key') : key ≠ key' := by
  obtain ⟨i, hi, hkey⟩ := hn
  rintro rfl
  exact absurd (hfresh i n key hkey hkey') hi.ne

theorem KvState.Minted.call (hfresh : FreshKeys rand) (hv : v.Minted rand) (call : EnclaveCall) :
    (enclaveCall crypto rand v call).Minted rand := by
  rcases enclaveCall_cases crypto rand v call with
    ⟨hentries, hdrawn⟩ | ⟨i, k, hnone, hrand, heq⟩ | ⟨i, -, heq⟩
  · refine ⟨by rw [hentries]; exact hv.ids, by rw [hentries]; exact hv.keys, fun e he => ?_⟩
    rw [hentries] at he
    obtain ⟨n, hn, hkey⟩ := hv.minted e he
    exact ⟨n, hn.trans_le hdrawn, hkey⟩
  · rw [heq]
    have hnew (e : CString × Block 32) (he : e ∈ v.entries) : e.2 ≠ k :=
      hfresh.drawn_ne (hv.minted e he) hrand
    refine ⟨?_, ?_, ?_⟩
    · simp only [List.map_cons, List.nodup_cons, List.mem_map, not_exists, not_and]
      exact ⟨fun e he hid => kvFind_none.1 hnone e he hid, hv.ids⟩
    · simp only [List.mem_cons, forall_eq_or_imp]
      refine ⟨⟨fun _ => trivial, fun e he hk => absurd hk.symm (hnew e he)⟩, fun e he => ?_⟩
      exact ⟨fun hk => absurd hk (hnew e he), hv.keys e he⟩
    · simp only [List.mem_cons, forall_eq_or_imp]
      refine ⟨⟨v.drawn, Nat.lt_succ_self _, hrand⟩, fun e he => ?_⟩
      obtain ⟨n, hn, hkey⟩ := hv.minted e he
      exact ⟨n, hn.trans (Nat.lt_succ_self _), hkey⟩
  · rw [heq]
    have hsub (e : CString × Block 32) (he : e ∈ v.entries.eraseP (·.1 == i)) : e ∈ v.entries :=
      List.mem_of_mem_eraseP he
    exact ⟨hv.ids.sublist (List.eraseP_sublist.map _),
      fun e he e' he' => hv.keys e (hsub e he) e' (hsub e' he'),
      fun e he => hv.minted e (hsub e he)⟩

theorem KvState.Minted.run (hfresh : FreshKeys rand) (hv : v.Minted rand)
    (calls : List EnclaveCall) : (enclaveRun crypto rand v calls).Minted rand :=
  run_inv (I := fun v : KvState => v.Minted rand) (P := fun _ => True)
    (fun _ call _ hv => hv.call hfresh call) calls _ (fun _ _ => trivial) hv

theorem KvState.new_minted : KvState.new.Minted rand :=
  ⟨List.nodup_nil, by simp [KvState.new], by simp [KvState.new]⟩

/-- The source has no key twice, so a key that is gone stays away. -/
theorem KvState.Gone.call (hfresh : FreshKeys rand) (hv : v.Gone rand key) (call : EnclaveCall) :
    (enclaveCall crypto rand v call).Gone rand key := by
  obtain ⟨⟨n, hn, hkey⟩, habsent⟩ := hv
  rcases enclaveCall_cases crypto rand v call with
    ⟨hentries, hdrawn⟩ | ⟨i, k, -, hrand, heq⟩ | ⟨i, -, heq⟩
  · exact ⟨⟨n, hn.trans_le hdrawn, hkey⟩, by rw [hentries]; exact habsent⟩
  · rw [heq]
    refine ⟨⟨n, hn.trans (Nat.lt_succ_self _), hkey⟩, ?_⟩
    simp only [List.mem_cons, forall_eq_or_imp]
    exact ⟨(hfresh.drawn_ne ⟨n, hn, hkey⟩ hrand).symm, habsent⟩
  · rw [heq]
    exact ⟨⟨n, hn, hkey⟩, fun e he => habsent e (List.mem_of_mem_eraseP he)⟩

theorem KvState.Gone.run (hfresh : FreshKeys rand) (hv : v.Gone rand key)
    (calls : List EnclaveCall) : (enclaveRun crypto rand v calls).Gone rand key :=
  run_inv (I := fun v : KvState => v.Gone rand key) (P := fun _ => True)
    (fun _ call _ hv => hv.call hfresh call) calls _ (fun _ _ => trivial) hv

/-- Shredding an identity takes its key away. -/
theorem KvState.Minted.gone (hv : v.Minted rand) (hfind : kvFind v identityId = some key) :
    (enclaveCall crypto rand v (.shred identityId)).Gone rand key := by
  have hmem := kvFind_mem hfind
  have heq : enclaveCall crypto rand v (.shred identityId)
      = ⟨v.entries.eraseP (·.1 == identityId), v.drawn⟩ := by
    simp only [enclaveCall, privateEnclaveShred, kvShred, hfind]
  rw [heq]
  refine ⟨hv.minted _ hmem, fun e he hkey => ?_⟩
  have hid := hv.keys e (List.mem_of_mem_eraseP he) _ hmem hkey
  exact kvFind_none.1 (kvFind_erase_self hv.ids) e he hid

theorem kvFind_shred (hv : v.Minted rand) :
    kvFind (enclaveCall crypto rand v (.shred identityId)) identityId = none := by
  rcases hfind : kvFind v identityId with _ | key
  · simp only [enclaveCall, privateEnclaveShred, kvShred, hfind]
  · simp only [enclaveCall, privateEnclaveShred, kvShred, hfind]
    exact kvFind_erase_self hv.ids

/-- An identity keeps its key through every call but its own shredding. -/
theorem kvFind_call (hfind : kvFind v identityId = some key) {call : EnclaveCall}
    (hcall : call ≠ .shred identityId) :
    kvFind (enclaveCall crypto rand v call) identityId = some key := by
  rcases enclaveCall_cases crypto rand v call with
    ⟨hentries, -⟩ | ⟨i, k, hnone, -, heq⟩ | ⟨i, rfl, heq⟩
  · unfold kvFind at hfind ⊢
    rw [hentries, hfind]
  · have hne : i ≠ identityId := by
      rintro rfl
      rw [hfind] at hnone
      exact nomatch hnone
    rw [heq]
    simpa [kvFind, hne] using hfind
  · have hne : identityId ≠ i := fun hid => hcall (by rw [hid])
    rw [heq, kvFind_erase_ne hne, hfind]

theorem kvFind_run {calls : List EnclaveCall} (hcalls : .shred identityId ∉ calls)
    (hfind : kvFind v identityId = some key) :
    kvFind (enclaveRun crypto rand v calls) identityId = some key :=
  run_inv (I := fun v => kvFind v identityId = some key) (P := (· ≠ .shred identityId))
    (fun _ _ hcall hv => kvFind_call hv hcall) calls _
    (fun _ hmem hcall => hcalls (hcall ▸ hmem)) hfind

/-- Some call gives the identity a key that it did not have. -/
def Recreated (crypto : EnclaveAead) (rand : ℕ → Option (Block 32)) (identityId : CString)
    (v : KvState) (calls : List EnclaveCall) : Prop :=
  ∃ before call after, calls = before ++ call :: after
    ∧ kvFind (enclaveRun crypto rand v before) identityId = none
    ∧ kvFind (enclaveCall crypto rand (enclaveRun crypto rand v before) call) identityId ≠ none

theorem kvFind_run_none (hnone : kvFind v identityId = none) {calls : List EnclaveCall}
    (hcalls : .shred identityId ∉ calls) :
    kvFind (enclaveRun crypto rand v calls) identityId ≠ none
      ↔ Recreated crypto rand identityId v calls := by
  induction calls using List.reverseRecOn with
  | nil =>
    refine ⟨fun h => absurd hnone h, fun ⟨before, call, after, h, _⟩ => ?_⟩
    exact absurd h.symm (by simp)
  | append_singleton calls call ih =>
    have hcalls' : .shred identityId ∉ calls := fun h => hcalls (List.mem_append_left _ h)
    refine ⟨fun h => ?_, fun ⟨before, c, after, heq, _, hsome⟩ => ?_⟩
    · by_cases hprev : kvFind (enclaveRun crypto rand v calls) identityId = none
      · refine ⟨calls, call, [], rfl, hprev, ?_⟩
        rwa [enclaveRun, run_snoc] at h
      · obtain ⟨before, c, after, rfl, hbefore, hsome⟩ := (ih hcalls').1 hprev
        exact ⟨before, c, after ++ [call], by simp, hbefore, hsome⟩
    · obtain ⟨key, hkey⟩ := Option.ne_none_iff_exists'.1 hsome
      have hafter : .shred identityId ∉ after := fun h => hcalls (by rw [heq]; simp [h])
      have hrun : calls ++ [call] = (before ++ [c]) ++ after := by simpa using heq
      rw [hrun, enclaveRun, run_append, run_snoc]
      exact (kvFind_run hafter hkey).symm ▸ Option.some_ne_none _

end Runs

section Erasure

variable {crypto : EnclaveAead} {rand : ℕ → Option (Block 32)} {v : KvState}
  {identityId : CString} {key : Block 32} {record : SealedRecord} {plaintext : Bytes}
  {actionHash : Option CString}

theorem hexDecodeBlock_hexEncode {n : ℕ} (b : Block n) :
    hexDecodeBlock (hexEncode b.val) n = some b := by
  unfold hexDecodeBlock
  rw [hexDecodeFixed_hexEncode b.2]
  simp only [b.2, dite_true]

/-- What is known of a record whose payload was sealed under a key. -/
structure SealedUnder (crypto : EnclaveAead) (key : Block 32) (record : SealedRecord)
    (plaintext : Bytes) : Prop where
  record : ∃ iv ciphertext tag,
    crypto.aes256gcmSeal key iv plaintext record.identityId = .ok (ciphertext, tag)
      ∧ record.ciphertext = hexEncode ciphertext ∧ record.iv = hexEncode iv.val
      ∧ record.authTag = hexEncode tag.val

/-- A call that seals does it under the key the vault holds afterwards, and so is the hash it
returns. -/
theorem sealedBy_eq_some {call : EnclaveCall}
    (h : sealedBy crypto rand v call = some (record, plaintext, actionHash)) :
    ∃ key, kvFind (enclaveCall crypto rand v call) record.identityId = some key
      ∧ SealedUnder crypto key record plaintext
      ∧ ∀ hash ∈ actionHash, actionCommitment crypto.toEnclaveCrypto key plaintext = .ok hash := by
  cases call with
  | sealRecord identityId payload reads =>
    rcases payload with _ | payload
    · exact nomatch h
    simp only [sealedBy] at h
    rcases hseal : privateEnclaveSeal crypto.toEnclaveCrypto (kvEnsureKey rand) v identityId
      (some payload) reads with ⟨e | record', v'⟩
    · simp [hseal] at h
    simp only [hseal, Option.some.injEq, Prod.mk.injEq] at h
    obtain ⟨rfl, rfl, rfl⟩ := h
    obtain ⟨_, key, hbytes, hkey, hunder⟩ := seal_eq_ok hseal
    obtain rfl := Option.some.inj hbytes
    obtain ⟨iv, ciphertext, tag, haes, rfl⟩ := sealUnder_eq_ok hunder
    refine ⟨key, ?_, ⟨iv, ciphertext, tag, haes, rfl, rfl, rfl⟩, by simp⟩
    simp only [enclaveCall, hseal]
    exact kvFind_ensured hkey
  | sealAction identityId payload provenance reads =>
    rcases payload with _ | payload
    · exact nomatch h
    simp only [sealedBy] at h
    rcases hseal : privateEnclaveSealAction crypto.toEnclaveCrypto (kvEnsureKey rand) v identityId
      (some payload) provenance reads with ⟨e | action, v'⟩
    · simp [hseal] at h
    simp only [hseal, Option.some.injEq, Prod.mk.injEq] at h
    obtain ⟨rfl, rfl, rfl⟩ := h
    obtain ⟨_, key, v₁, record, hbytes, hkey, hcommit, hseal', _, hrecord⟩ := sealAction_parts hseal
    obtain rfl := Option.some.inj hbytes
    obtain ⟨_, key', hbytes', hkey', hunder⟩ := seal_eq_ok hseal'
    obtain rfl := Option.some.inj hbytes'
    rw [kvEnsureKey_again hkey] at hkey'
    obtain ⟨hsame, rfl⟩ := Prod.mk.inj hkey'
    obtain rfl := Except.ok.inj hsame
    obtain ⟨iv, ciphertext, tag, haes, rfl⟩ := sealUnder_eq_ok hunder
    rw [hrecord]
    refine ⟨key, ?_, ⟨iv, ciphertext, tag, haes, rfl, rfl, rfl⟩, by simpa using hcommit⟩
    simp only [enclaveCall, hseal]
    exact kvFind_ensured hkey
  | openRecord record => exact nomatch h
  | recompute identityId payload => exact nomatch h
  | shred identityId => exact nomatch h

/-- A sealed record opens under its own key and fails the integrity check under every other. -/
theorem SealedUnder.open_eq (hideal : IdealAead crypto)
    (h : SealedUnder crypto key record plaintext) (v : KvState) :
    enclaveOpen crypto v record = match kvFind v record.identityId with
      | none => .error .eshredded
      | some key' => if key' = key then .ok plaintext else .error .eintegrity := by
  obtain ⟨iv, ciphertext, tag, haes, hciphertext, hiv, htag⟩ := h.record
  unfold enclaveOpen privateEnclaveOpen kvGetKey
  rcases hfind : kvFind v record.identityId with _ | key'
  · rfl
  simp only [openUnder, hciphertext, hiv, htag, hexDecodeBlock_hexEncode, hexDecode_hexEncode]
  by_cases hkey : key' = key
  · rw [if_pos hkey, hkey, hideal.opens haes]
  · rw [if_neg hkey]
    rcases hopen : crypto.aes256gcmOpen key' iv ciphertext record.identityId tag with e | opened
    · rfl
    · exact absurd (hideal.only haes hopen).1 hkey

theorem enclaveActionHash_of_find {payload : Bytes} {hash : CString}
    (hfind : kvFind v identityId = some key)
    (hcommit : actionCommitment crypto.toEnclaveCrypto key payload = .ok hash) :
    enclaveActionHash crypto v identityId (some payload) = .ok (some hash) := by
  simp only [enclaveActionHash, privateEnclaveRecomputeActionHash, kvGetKey, hfind, hcommit]
  rfl

theorem enclaveActionHash_eq_some {payload : Option Bytes} {hash : CString}
    (h : enclaveActionHash crypto v identityId payload = .ok (some hash)) :
    ∃ bytes key, payload = some bytes ∧ kvFind v identityId = some key
      ∧ actionCommitment crypto.toEnclaveCrypto key bytes = .ok hash := by
  unfold enclaveActionHash privateEnclaveRecomputeActionHash kvGetKey at h
  rcases payload with _ | bytes
  · exact nomatch h
  rcases hfind : kvFind v identityId with _ | key
  · simp [hfind] at h
  rcases hcommit : actionCommitment crypto.toEnclaveCrypto key bytes with e | commitment
  · simp [hfind, hcommit, Except.map] at h
  simp only [hfind, hcommit, Except.map, Except.ok.injEq, Option.some.injEq] at h
  exact ⟨bytes, key, rfl, rfl, by rw [hcommit, h]⟩

/-- After the calls a shredded identity's old key is gone. -/
theorem gone_after_shred (hfresh : FreshKeys rand) (hv : v.Minted rand)
    (hfind : kvFind v identityId = some key) {later : List EnclaveCall}
    (hshred : .shred identityId ∈ later) : (enclaveRun crypto rand v later).Gone rand key := by
  -- the first shredding meets the key itself
  obtain ⟨prior, after, rfl, hprior⟩ := List.eq_append_cons_of_mem hshred
  have hkey : kvFind (enclaveRun crypto rand v prior) identityId = some key :=
    kvFind_run hprior hfind
  rw [enclaveRun, run_append, run_cons]
  exact ((hv.run hfresh prior).gone hkey).run hfresh after

/-- A record opens to what was sealed until its identity is shredded. Afterwards it never opens:
there is no key, or once the identity has a key again the integrity check fails. The same shredding
ends the recomputing of its action hash. -/
theorem enclave_shred_erases (hideal : IdealAead crypto) (hfresh : FreshKeys rand)
    (hhash : CommitsToActions crypto.sha256) (before : List EnclaveCall) (call : EnclaveCall)
    (hseal : sealedBy crypto rand (enclaveRun crypto rand .new before) call
      = some (record, plaintext, actionHash)) (later : List EnclaveCall) :
    let sealed := enclaveRun crypto rand .new (before ++ [call])
    let v := enclaveRun crypto rand sealed later
    let shredded : EnclaveCall := .shred record.identityId
    (shredded ∉ later → enclaveOpen crypto v record = .ok plaintext)
      ∧ (shredded ∈ later → ∀ opened, enclaveOpen crypto v record ≠ .ok opened)
      ∧ (∀ prior after, later = prior ++ shredded :: after → shredded ∉ after →
        let erased := enclaveRun crypto rand sealed (prior ++ [shredded])
        (¬ Recreated crypto rand record.identityId erased after →
            enclaveOpen crypto v record = .error .eshredded)
          ∧ (Recreated crypto rand record.identityId erased after →
            enclaveOpen crypto v record = .error .eintegrity))
      ∧ ∀ hash, (actionHash = some hash
          ∨ enclaveActionHash crypto sealed record.identityId (some plaintext) = .ok (some hash)) →
        (shredded ∉ later →
            enclaveActionHash crypto v record.identityId (some plaintext) = .ok (some hash))
          ∧ (shredded ∈ later → ∀ identityId payload,
            enclaveActionHash crypto v identityId payload ≠ .ok (some hash)) := by
  intro sealed v shredded
  have hsealed : sealed = enclaveCall crypto rand (enclaveRun crypto rand .new before) call :=
    run_snoc before call
  obtain ⟨key, hfind, hunder, hreturned⟩ := sealedBy_eq_some hseal
  rw [← hsealed] at hfind
  have hminted : sealed.Minted rand := KvState.new_minted.run hfresh _
  have hgone (hmem : shredded ∈ later) : v.Gone rand key :=
    gone_after_shred hfresh hminted hfind hmem
  have hne (hmem : shredded ∈ later) {i : CString} {key' : Block 32}
      (hkey' : kvFind v i = some key') : key' ≠ key := (hgone hmem).absent _ (kvFind_mem hkey')
  have hopen := hunder.open_eq hideal v
  refine ⟨fun hmem => ?_, fun hmem opened => ?_, fun prior after hlater hafter => ?_,
    fun hash hcommits => ?_⟩
  · rw [hopen, kvFind_run hmem hfind]
    simp only [if_true]
  · rcases hkey' : kvFind v record.identityId with _ | key' <;> rw [hkey'] at hopen
    · simp [hopen]
    · simp [hopen, hne hmem hkey']
  · have hmem : shredded ∈ later := by simp [hlater]
    intro erased
    have herased : kvFind erased record.identityId = none := by
      simp only [erased, enclaveRun, run_snoc]
      exact kvFind_shred (hminted.run hfresh prior)
    have hv : v = enclaveRun crypto rand erased after := by
      simp only [v, erased, enclaveRun, hlater, run_append, run_cons, run_nil]
    have hagain : kvFind v record.identityId ≠ none
        ↔ Recreated crypto rand record.identityId erased after := by
      rw [hv]
      exact kvFind_run_none herased hafter
    refine ⟨fun hno => ?_, fun hyes => ?_⟩
    · rw [hopen, not_not.1 (mt hagain.1 hno)]
    · obtain ⟨key', hkey'⟩ := Option.ne_none_iff_exists'.1 (hagain.2 hyes)
      rw [hopen, hkey']
      simp only [hne hmem hkey', if_false]
  · have hcommit : actionCommitment crypto.toEnclaveCrypto key plaintext = .ok hash := by
      rcases hcommits with rfl | hrecompute
      · exact hreturned hash rfl
      · obtain ⟨_, _, hbytes, hfind', hcommit⟩ := enclaveActionHash_eq_some hrecompute
        obtain rfl := Option.some.inj hbytes
        obtain rfl := Option.some.inj (hfind.symm.trans hfind')
        exact hcommit
    refine ⟨fun hmem => enclaveActionHash_of_find (kvFind_run hmem hfind) hcommit, ?_⟩
    intro hmem i payload hrecompute
    obtain ⟨bytes, key', -, hkey', hcommit'⟩ := enclaveActionHash_eq_some hrecompute
    exact hne hmem hkey' (actionCommitment_key hhash hcommit' hcommit)

end Erasure

section Examples

def exampleVaultKey : Block 32 := Block.fill 32 1

def exampleVaultIv : Block 12 := Block.fill 12 3

def exampleVaultTag : Block 16 :=
  ⟨[98, 30, 200, 128, 206, 14, 206, 78, 28, 98, 37, 104, 134, 239, 65, 45], rfl⟩

def exampleActionDigest : Bytes :=
  [3, 215, 202, 225, 69, 151, 160, 19, 191, 196, 111, 82, 127, 205, 241, 84, 238, 81, 224, 117, 66,
   190, 137, 163, 118, 122, 85, 136, 123, 234, 107, 113]

def exampleMarkerDigest : Bytes :=
  [139, 133, 131, 181, 50, 39, 173, 203, 9, 200, 150, 53, 54, 130, 74, 233, 243, 188, 76, 28, 92,
   245, 196, 105, 233, 124, 120, 48, 208, 44, 89, 88]

/-- The primitives on the payload `hi` of the identity `a`. -/
def exampleAead : EnclaveAead where
  sha256 pre :=
    if pre = actionPreimage exampleVaultKey [104, 105] then exampleActionDigest
    else if pre = shredMarkerDomain ++ [97] then exampleMarkerDigest else pre
  aes256gcmSeal key iv plaintext aad :=
    if key = exampleVaultKey ∧ iv = exampleVaultIv ∧ plaintext = [104, 105] ∧ aad = [97] then
      .ok ([144, 8], exampleVaultTag)
    else .error .ecrypto
  aes256gcmOpen key iv ciphertext aad tag :=
    if key = exampleVaultKey ∧ iv = exampleVaultIv ∧ ciphertext = [144, 8] ∧ aad = [97]
        ∧ tag = exampleVaultTag then .ok [104, 105]
    else .error .ecrypto

def exampleVaultRand : ℕ → Option (Block 32)
  | 0 => some exampleVaultKey
  | 1 => some (Block.fill 32 2)
  | _ => none

theorem exampleAead_ideal : IdealAead exampleAead where
  opens h := by
    simp only [exampleAead] at h ⊢
    split_ifs at h with hseal
    obtain ⟨rfl, rfl⟩ := Prod.mk.inj (Except.ok.inj h)
    simp [hseal]
  only h h' := by
    simp only [exampleAead] at h h'
    split_ifs at h with hseal
    split_ifs at h' with hopen
    exact ⟨hopen.1.trans hseal.1.symm, hopen.2.1.trans hseal.2.1.symm,
      hopen.2.2.2.1.trans hseal.2.2.2.symm⟩

theorem exampleVaultRand_fresh : FreshKeys exampleVaultRand := by
  have hne : exampleVaultKey ≠ Block.fill 32 2 := by decide
  intro i j key hi hj
  match i, j with
  | 0, 0 => rfl
  | 1, 1 => rfl
  | 0, 1 => exact absurd (Option.some.inj (hi.trans hj.symm)) hne
  | 1, 0 => exact absurd (Option.some.inj (hj.trans hi.symm)) hne
  | i + 2, _ => exact nomatch hi
  | _, j + 2 => exact nomatch hj

theorem exampleAead_commits : CommitsToActions exampleAead.sha256 := by
  -- a digest is shorter than every preimage
  have hlong (key : Block 32) (payload : Bytes) : 51 ≤ (actionPreimage key payload).length := by
    have hdomain : priscillaActionDomain.length = 19 := by decide
    simp only [actionPreimage, List.length_append, hdomain, key.2]
    omega
  have hsha {pre : Bytes} (hpre : 51 ≤ pre.length) : exampleAead.sha256 pre
      = if pre = actionPreimage exampleVaultKey [104, 105] then exampleActionDigest else pre := by
    have hmarker : pre ≠ shredMarkerDomain ++ [97] := by
      rintro rfl
      exact absurd hpre (by decide)
    simp only [exampleAead, if_neg hmarker]
  have hshort : exampleActionDigest.length = 32 := rfl
  rintro _ ⟨key, payload, rfl⟩ _ ⟨key', payload', rfl⟩ heq
  rw [hsha (hlong _ _), hsha (hlong _ _)] at heq
  have h := hlong key payload
  have h' := hlong key' payload'
  split_ifs at heq with hx hy hy
  · rw [hx, hy]
  · rw [← heq, hshort] at h'
    omega
  · rw [heq, hshort] at h
    omega
  · exact heq

def exampleSealCall : EnclaveCall :=
  .sealAction [97] (some [104, 105]) none ⟨some exampleVaultIv, 5⟩

def exampleSealedRecord : SealedRecord :=
  ⟨[97], hexEncode [144, 8], hexEncode exampleVaultIv.val, hexEncode exampleVaultTag.val, 5, none⟩

/-- The identity `a` is shredded and given a key again by a call that then fails. -/
theorem enclave_shred_erases_example :
    enclaveOpen exampleAead (enclaveRun exampleAead exampleVaultRand .new
        [exampleSealCall, .shred [97], .sealRecord [97] (some [104, 105]) ⟨none, 6⟩])
      exampleSealedRecord = .error .eintegrity := by
  have hseal : sealedBy exampleAead exampleVaultRand .new exampleSealCall
      = some (exampleSealedRecord, [104, 105], some (hexEncode exampleActionDigest)) := by
    decide +kernel
  have herased := (enclave_shred_erases exampleAead_ideal exampleVaultRand_fresh
    exampleAead_commits [] exampleSealCall hseal
    [.shred [97], .sealRecord [97] (some [104, 105]) ⟨none, 6⟩]).2.2.1 [] _ rfl (by simp)
  exact herased.2 ⟨[], _, [], rfl, by decide +kernel, by decide +kernel⟩

end Examples

end BonsaiChain
