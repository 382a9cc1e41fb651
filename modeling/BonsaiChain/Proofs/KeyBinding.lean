import BonsaiChain.KeyBinding
import BonsaiChain.Lib.Results
import BonsaiChain.Proofs.Common

/-!
# A key is bound to the script exactly when its text occurs on byte boundaries

Bytes occur in bytes where their hex text occurs at an even offset. The broker accepts any offset,
so it issues a key for a script that holds the digits of its hash but not the hash.
-/

namespace BonsaiChain

section Text

theorem hexEncode_append : ∀ as bs : Bytes, hexEncode (as ++ bs) = hexEncode as ++ hexEncode bs
  | [], _ => rfl
  | a :: as, bs => by
    simp only [List.cons_append, hexEncode, hexEncode_append as bs]

/-- The first digits of an encoding, cut on a byte boundary, encode the first bytes. -/
theorem hexEncode_split {bs : Bytes} {s t : CString} (h : s ++ t = hexEncode bs)
    (hs : s.length % 2 = 0) : ∃ as cs, bs = as ++ cs ∧ s = hexEncode as ∧ t = hexEncode cs := by
  have hcut := List.take_append_drop (s.length / 2) bs
  have hlen : s.length + t.length = 2 * bs.length := by
    rw [← hexEncode_length, ← h, List.length_append]
  have htake : s.length = (hexEncode (bs.take (s.length / 2))).length := by
    rw [hexEncode_length, List.length_take]
    omega
  have hsplit : s ++ t
    = hexEncode (bs.take (s.length / 2)) ++ hexEncode (bs.drop (s.length / 2)) := by
    rw [← hexEncode_append, hcut, h]
  obtain ⟨h1, h2⟩ := List.append_inj hsplit htake
  exact ⟨_, _, hcut.symm, h1, h2⟩

/-- Bytes occur in bytes exactly where their text occurs on a byte boundary. -/
theorem occursAligned_hexEncode {bs script : Bytes} :
    OccursAligned (hexEncode bs) (hexEncode script) ↔ bs <:+: script := by
  constructor
  · rintro ⟨before, after, h, hev⟩
    rw [List.append_assoc] at h
    obtain ⟨as, cs, rfl, -, hrest⟩ := hexEncode_split h hev
    have hlen : (hexEncode bs).length % 2 = 0 := by
      rw [hexEncode_length]
      omega
    obtain ⟨bs', ds, rfl, hbs, -⟩ := hexEncode_split hrest hlen
    obtain rfl := hexEncode_inj hbs
    exact ⟨as, ds, by rw [List.append_assoc]⟩
  · rintro ⟨as, cs, rfl⟩
    refine ⟨hexEncode as, hexEncode cs, by rw [hexEncode_append, hexEncode_append], ?_⟩
    rw [hexEncode_length]
    omega

theorem occursAligned_iff {s t : CString} {bs script : Bytes} (hs : hexDecode s = .ok bs)
    (ht : hexDecode t = .ok script) :
    OccursAligned (hexToLower s) (hexToLower t) ↔ bs <:+: script := by
  rw [← hexEncode_of_hexDecode hs, ← hexEncode_of_hexDecode ht]
  exact occursAligned_hexEncode

end Text

section Binding

variable {args : IssueFromChainArgs} {view : IdentityChainView}

theorem isPubkeyHex_isHexLen {s : CString} (h : isPubkeyHex s = true) : isHexLen s 33 = true := by
  unfold isPubkeyHex at h
  rw [Bool.and_eq_true, Bool.and_eq_true] at h
  exact h.1.1

/-- Past the checks of the broker, the bytes bind exactly when the text is aligned. -/
theorem IssueFromChainArgs.scriptBinds_iff (h : args.TextBinds view) :
    args.ScriptBinds ↔ args.TextAligned := by
  obtain ⟨rh, hrh, hhash⟩ := isHexLen_iff.mp h.hash
  obtain ⟨pk, hpk, hkey⟩ := isHexLen_iff.mp (isPubkeyHex_isHexLen h.key)
  unfold ScriptBinds
  constructor
  · rintro ⟨script, hscript, ⟨rh', hrh', hmem⟩, pk', hpk', hmem'⟩
    obtain ⟨heven, hdigits⟩ := hexDecode_ok_iff.mp ⟨script, hscript⟩
    refine ⟨heven, hdigits, ?_, ?_⟩
    · exact (occursAligned_iff (hexDecodeFixed_eq_ok.mp hrh').2 hscript).mpr hmem
    · exact (occursAligned_iff (hexDecodeFixed_eq_ok.mp hpk').2 hscript).mpr hmem'
  · rintro ⟨heven, hdigits, halign, halign'⟩
    obtain ⟨script, hscript⟩ := hexDecode_ok_iff.mpr ⟨heven, hdigits⟩
    refine ⟨script, hscript, ⟨rh, hexDecodeFixed_eq_ok.mpr ⟨hrh, hhash⟩, ?_⟩,
      pk, hexDecodeFixed_eq_ok.mpr ⟨hpk, hkey⟩, ?_⟩
    · exact (occursAligned_iff hhash hscript).mp halign
    · exact (occursAligned_iff hkey hscript).mp halign'

namespace KeyBroker

theorem bindingCheck_eq_none : bindingCheck view args = none ↔ args.TextBinds view := by
  unfold bindingCheck
  rw [← IssueFromChainArgs.hashText, ← IssueFromChainArgs.keyText,
    ← IssueFromChainArgs.scriptText]
  constructor
  · intro h
    split at h
    · simp at h
    rename_i hverified
    simp only [] at h
    split_ifs at h with h1 h2 h3 h4
    refine ⟨hverified, ?_, ?_, h3, h4⟩
    · simpa using h1
    · simpa using h2
  · rintro ⟨hverified, hhash, hkey, hmem, hmem'⟩
    rw [hverified]
    simp only []
    rw [if_neg (by simpa using hhash), if_neg (by simpa using hkey), if_neg (not_not.mpr hmem),
      if_neg (not_not.mpr hmem')]

variable {σ : Type} (sha256 : Bytes → Bytes) (ask : Ask σ) (b : KeyBroker) (o : σ)

theorem issue_ok_iff (a : IssueArgs) (rand : IssueRandom) (now : Int) :
    (∃ r, (issue sha256 b a rand now).1 = .ok r) ↔ rand.Answers := by
  unfold issue IssueRandom.Answers
  rcases rand with ⟨_ | idRaw, _ | secRaw⟩ <;> simp

/-- A key is issued exactly when the checks pass, the oracle answers that the identity stands and
the random source answers. -/
theorem issueFromChain_ok_iff (rand : IssueRandom) (now : Int) :
    (∃ r, (issueFromChain sha256 ask b o args view rand now).1 = .ok r) ↔
      args.TextBinds view ∧ (ask o (args.identityId.getD [])).1 = .ok false ∧ rand.Answers := by
  rw [← bindingCheck_eq_none]
  unfold issueFromChain
  rcases bindingCheck view args with _ | reason
  · rcases ask o (args.identityId.getD []) with ⟨e | _ | _, o'⟩ <;> simp only []
    · simp
    · rw [← issue_ok_iff sha256 b ⟨args.agentPubKey, args.ricardianHash, args.identityId,
        envelopeFromIdentity args.params args.scopes⟩ rand now]
      rcases issue sha256 b _ rand now with ⟨e | r, b'⟩ <;> simp
    · simp
  · simp

/-- What a key is issued for commits to its hash and its key exactly when the call is refused or
both occur on byte boundaries of a script of whole bytes. -/
theorem issueFromChain_binds_iff (args : IssueFromChainArgs) (view : IdentityChainView)
    (rand : IssueRandom) (now : Int) :
    ((∃ r, (issueFromChain sha256 ask b o args view rand now).1 = .ok r) →
      verifyIdentityScriptOnChain view args.identityId args.identityVout
        args.expectedLockingScriptHex = none ∧ args.ScriptBinds) ↔
      (args.TextBinds view → (ask o (args.identityId.getD [])).1 = .ok false → rand.Answers →
        args.TextAligned) := by
  rw [issueFromChain_ok_iff]
  constructor
  · intro h htext hask hrand
    exact (args.scriptBinds_iff htext).mp (h ⟨htext, hask, hrand⟩).2
  · rintro h ⟨htext, hask, hrand⟩
    exact ⟨htext.verified, (args.scriptBinds_iff htext).mpr (h htext hask hrand)⟩

end KeyBroker

end Binding

section OddOffset

/-- The digits of the hash and of the key between two others, so that neither starts a byte. -/
def oddOffsetArgs : IssueFromChainArgs :=
  let rh : CString := List.replicate 64 49
  let pk : CString := 48 :: 50 :: List.replicate 64 48
  ⟨some [], 0, some (48 :: (rh ++ pk ++ [48])), some pk, some rh, ⟨1, 1, 1⟩, []⟩

def oddOffsetView : IdentityChainView := ⟨fun _ _ => .ok oddOffsetArgs.expectedLockingScriptHex⟩

/-- A key is issued for a script whose bytes hold neither its hash nor its key. -/
theorem KeyBroker.issueFromChain_odd_offset :
    (∃ r, (issueFromChain (fun _ => List.replicate 32 0) (fun o _ => (.ok false, o)) .new ()
        oddOffsetArgs oddOffsetView ⟨some ⟨List.replicate 16 0, rfl⟩,
          some ⟨List.replicate 24 0, rfl⟩⟩
        0).1 = .ok r ∧ r.1.ricardianHash = oddOffsetArgs.hashText) ∧
      ∃ script, hexDecode oddOffsetArgs.scriptText = .ok script ∧
        ¬ (∃ rh, hexDecodeFixed oddOffsetArgs.hashText 32 = .ok rh ∧ rh <:+: script) ∧
        ¬ ∃ pk, hexDecodeFixed oddOffsetArgs.keyText 33 = .ok pk ∧ pk <:+: script := by
  decide +kernel

end OddOffset

end BonsaiChain
